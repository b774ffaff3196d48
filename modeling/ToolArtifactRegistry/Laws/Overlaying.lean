import ToolArtifactRegistry.Api.Codec
import ToolArtifactRegistry.Api.Updating
import ToolArtifactRegistry.Laws.Specimen

/-! What a PATCH makes of a stored document. Objects are merged key by key, whatever else is sent takes
the place of what was there. -/
namespace ToolArtifactRegistry.Laws

open Library.Serde Api Api.Codec

section Documents

/-- An object holds each of its keys once, at every depth. -/
def DistinctKeys : Json → Prop
  | .array items => eachItem items
  | .object entries => eachEntry entries
  | _ => True
where
  eachItem : List Json → Prop
    | [] => True
    | item :: rest => DistinctKeys item ∧ eachItem rest
  eachEntry : List (String × Json) → Prop
    | [] => True
    | (key, value) :: rest => (∀ entry ∈ rest, entry.1 ≠ key) ∧ DistinctKeys value ∧ eachEntry rest

/-- The value at the end of a path of keys. -/
def valueAt : List String → Json → Option Json
  | [], value => some value
  | key :: rest, value => (value.get? key).bind (valueAt rest)

def isObject : Json → Bool
  | .object _ => true
  | _ => false

theorem setEntry_same {entries : List (String × Json)} {key : String} {value : Json}
    (held : findEntry entries key = some value) : setEntry entries key value = entries := by
  induction entries with
  | nil => cases held
  | cons entry rest ih =>
    obtain ⟨name, old⟩ := entry
    by_cases here : name = key
    · simp only [findEntry, here, if_true, Option.some.injEq] at held
      simp only [setEntry, here, if_true, held]
    · simp only [findEntry, here, if_false] at held
      simp only [setEntry, here, if_false, ih held]

theorem findEntry_none {entries : List (String × Json)} {key : String} (absent : ∀ entry ∈ entries, entry.1 ≠ key) :
    findEntry entries key = none := by
  induction entries with
  | nil => rfl
  | cons entry rest ih =>
    rw [findEntry, if_neg (absent entry List.mem_cons_self)]
    exact ih (fun other mem => absent other (List.mem_cons_of_mem _ mem))

theorem mem_of_findEntry {entries : List (String × Json)} {key : String} {value : Json}
    (held : findEntry entries key = some value) : (key, value) ∈ entries := by
  induction entries with
  | nil => cases held
  | cons entry rest ih =>
    obtain ⟨name, old⟩ := entry
    by_cases here : name = key
    · simp only [findEntry, here, if_true, Option.some.injEq] at held
      rw [here, held]
      exact List.mem_cons_self
    · simp only [findEntry, here, if_false] at held
      exact List.mem_cons_of_mem _ (ih held)

theorem findEntry_of_mem {entries : List (String × Json)} (distinct : DistinctKeys.eachEntry entries) {key : String} {value : Json}
    (mem : (key, value) ∈ entries) : findEntry entries key = some value := by
  induction entries with
  | nil => cases mem
  | cons entry rest ih =>
    obtain ⟨name, old⟩ := entry
    rcases List.mem_cons.1 mem with here | later
    · simp only [Prod.mk.injEq] at here
      simp only [findEntry, here.1, here.2, if_true]
    · have apart : name ≠ key := fun same => distinct.1 _ later same.symm
      simp only [findEntry, apart, if_false]
      exact ih distinct.2.2 later

theorem distinct_of_mem {entries : List (String × Json)} (distinct : DistinctKeys.eachEntry entries) {entry : String × Json}
    (mem : entry ∈ entries) : DistinctKeys entry.2 := by
  induction entries with
  | nil => cases mem
  | cons first rest ih =>
    obtain ⟨name, old⟩ := first
    rcases List.mem_cons.1 mem with rfl | later
    · exact distinct.2.1
    · exact ih distinct.2.2 later

end Documents

section Merging

theorem mergeValue_eq (existing : Option Json) (patch : Json) :
    mergeJson.mergeValue existing patch = mergeJson (existing.getD .null) patch := by
  cases patch with
  | object entries => rcases existing with _ | existing <;> [skip; cases existing] <;> rfl
  | _ => rfl

theorem mergeJson_other {base : Json} (other : isObject base = false) (patch : Json) : mergeJson base patch = patch := by
  cases patch with
  | object entries =>
    cases base with
    | object stored => cases other
    | _ => rfl
  | _ => rfl

theorem mergeJson_replaces (base : Json) {patch : Json} (plain : isObject patch = false) : mergeJson base patch = patch := by
  cases patch with
  | object entries => cases plain
  | _ => rfl

/-- A key of the result has what the two values of it make, or the value of the one document that has it. -/
theorem findEntry_merged {entries : List (String × Json)} (distinct : DistinctKeys.eachEntry entries)
    (stored : List (String × Json)) (key : String) :
    findEntry (mergeJson.mergeEntries stored entries) key =
      match findEntry entries key with
      | none => findEntry stored key
      | some value => some (mergeJson ((findEntry stored key).getD .null) value) := by
  induction entries generalizing stored with
  | nil => rfl
  | cons entry rest ih =>
    obtain ⟨name, value⟩ := entry
    rw [mergeJson.mergeEntries, ih distinct.2.2, findEntry_setEntry, mergeValue_eq]
    by_cases here : name = key
    · subst here
      rw [findEntry_none distinct.1]
      simp only [findEntry, if_true]
    · simp only [findEntry, here, if_false]

/-- Entries that are merged to what is there already change nothing. -/
theorem mergeEntries_absorbed {stored entries : List (String × Json)}
    (absorbed : ∀ key value, (key, value) ∈ entries →
      ∃ held, findEntry stored key = some held ∧ mergeJson held value = held) :
    mergeJson.mergeEntries stored entries = stored := by
  induction entries with
  | nil => rfl
  | cons entry rest ih =>
    obtain ⟨key, value⟩ := entry
    obtain ⟨held, there, same⟩ := absorbed key value List.mem_cons_self
    rw [mergeJson.mergeEntries, mergeValue_eq, there, Option.getD_some, same, setEntry_same there]
    exact ih (fun key value mem => absorbed key value (List.mem_cons_of_mem _ mem))

/-- A patch that has been merged in is absorbed: merging it in again changes nothing. -/
theorem mergeJson_again (base : Json) {patch : Json} (distinct : DistinctKeys patch) :
    mergeJson (mergeJson base patch) patch = mergeJson base patch := by
  match patch with
  | .null | .bool _ | .number _ | .string _ | .array _ => rfl
  | .object entries =>
    have inner : ∀ (base : Json) (key : String) (value : Json), (key, value) ∈ entries →
        mergeJson (mergeJson base value) value = mergeJson base value :=
      fun base key value mem => mergeJson_again base (distinct_of_mem distinct mem)
    by_cases object : isObject base = true
    · obtain ⟨stored, rfl⟩ : ∃ stored, base = .object stored := by
        cases base with
        | object stored => exact ⟨stored, rfl⟩
        | _ => cases object
      apply congrArg Json.object
      apply mergeEntries_absorbed
      intro key value mem
      refine ⟨_, ?_, inner ((findEntry stored key).getD .null) key value mem⟩
      rw [findEntry_merged distinct, findEntry_of_mem distinct mem]
    · have replaced := mergeJson_other (by simpa using object) (.object entries)
      rw [replaced]
      apply congrArg Json.object
      apply mergeEntries_absorbed
      intro key value mem
      refine ⟨value, findEntry_of_mem distinct mem, ?_⟩
      have whole : mergeJson .null value = value := mergeJson_other rfl value
      have same := inner .null key value mem
      rwa [whole] at same
termination_by sizeOf patch
decreasing_by
  have smaller := List.sizeOf_lt_of_mem mem
  simp only [Prod.mk.sizeOf_spec, Json.object.sizeOf_spec] at smaller ⊢
  omega

theorem get?_merged {entries : List (String × Json)} (distinct : DistinctKeys (.object entries)) (stored : List (String × Json))
    (key : String) : (mergeJson (.object stored) (.object entries)).get? key =
      match findEntry entries key with
      | none => findEntry stored key
      | some value => some (mergeJson ((findEntry stored key).getD .null) value) :=
  findEntry_merged distinct stored key

/-- What a patch sends, other than an object, is what the result has there. -/
theorem valueAt_sent {path : List String} {base patch value : Json} (distinct : DistinctKeys patch)
    (sent : valueAt path patch = some value) (plain : isObject value = false) :
    valueAt path (mergeJson base patch) = some value := by
  induction path generalizing base patch with
  | nil =>
    obtain rfl := Option.some.inj sent
    rw [mergeJson_replaces base plain]
    rfl
  | cons key rest ih =>
    obtain ⟨inner, here, further⟩ := Option.bind_eq_some_iff.1 sent
    cases patch with
    | object entries =>
      cases base with
      | object stored =>
        have held : findEntry entries key = some inner := here
        rw [valueAt, get?_merged distinct, held]
        exact ih (distinct_of_mem distinct (mem_of_findEntry held)) further
      | _ => exact sent
    | _ => cases here

/-- Where both documents have an object, a key the patch does not name has the value it had. -/
theorem valueAt_kept {path : List String} {base patch : Json} (distinct : DistinctKeys patch)
    {stored entries : List (String × Json)} (before : valueAt path base = some (.object stored))
    (named : valueAt path patch = some (.object entries)) {key : String} (absent : findEntry entries key = none) :
    valueAt (path ++ [key]) (mergeJson base patch) = valueAt (path ++ [key]) base := by
  induction path generalizing base patch with
  | nil =>
    obtain rfl := Option.some.inj before
    obtain rfl := Option.some.inj named
    show ((mergeJson (.object stored) (.object entries)).get? key).bind (valueAt []) = _
    rw [get?_merged distinct, absent]
    rfl
  | cons first rest ih =>
    obtain ⟨old, there, beyond⟩ := Option.bind_eq_some_iff.1 before
    obtain ⟨inner, here, further⟩ := Option.bind_eq_some_iff.1 named
    cases patch with
    | object fields =>
      cases base with
      | object known =>
        have held : findEntry fields first = some inner := here
        have had : findEntry known first = some old := there
        rw [List.cons_append, valueAt, valueAt, get?_merged distinct, held, there, had]
        exact ih (distinct_of_mem distinct (mem_of_findEntry held)) beyond further
      | _ => cases there
    | _ => cases here

end Merging

/-- Merging twice is merging once; at every depth, what the patch sends is what the result has, and where
it sends an object over an object, what it does not name stays; an object takes nothing from an empty one. -/
theorem merge_lawful {base patch : Json} (distinct : DistinctKeys patch) :
    mergeJson (mergeJson base patch) patch = mergeJson base patch ∧
      (∀ path value, valueAt path patch = some value → isObject value = false →
        valueAt path (mergeJson base patch) = some value) ∧
      (∀ path stored entries key, valueAt path base = some (.object stored) → valueAt path patch = some (.object entries) →
        findEntry entries key = none →
          valueAt (path ++ [key]) (mergeJson base patch) = valueAt (path ++ [key]) base) ∧
      (isObject base = true → mergeJson base (.object []) = base) := by
  refine ⟨mergeJson_again base distinct, ?_, ?_, ?_⟩
  · intro path value sent plain
    exact valueAt_sent distinct sent plain
  · intro path stored entries key before named absent
    exact valueAt_kept distinct before named absent
  · intro object
    cases base with
    | object stored => rfl
    | _ => cases object

/-- A deployment with an endpoint and an operator, and a change of the operator's name that clears the endpoint. -/
def amended : Json := .object [("endpoint_url", .string "https://one.example"), ("operator", .object [("kind", .string "person")])]

def amendment : Json := .object [("operator", .object [("name", .string "Ada")]), ("endpoint_url", .null)]

theorem amendment_distinct : DistinctKeys amendment := by
  simp [amendment, DistinctKeys, DistinctKeys.eachEntry]

theorem amendment_lawful : mergeJson (mergeJson amended amendment) amendment = mergeJson amended amendment ∧
    valueAt ["operator", "name"] (mergeJson amended amendment) = some (.string "Ada") ∧
    valueAt ["operator", "kind"] (mergeJson amended amendment) = valueAt ["operator", "kind"] amended := by
  obtain ⟨again, sent, kept, _⟩ := @merge_lawful amended amendment amendment_distinct
  exact ⟨again, sent ["operator", "name"] _ rfl rfl, kept ["operator"] _ _ "kind" rfl rfl rfl⟩

/-- An empty object takes the place of whatever is not an object. -/
theorem empty_object_replaces : mergeJson .null (.object []) ≠ .null := by
  intro same
  cases same

end ToolArtifactRegistry.Laws

/-! No update is lost, as long as none is written while another has loaded the record and not yet written it.
A record is rewritten whole from what was loaded, so that otherwise the later write undoes the earlier one. -/
namespace ToolArtifactRegistry.Laws

open Library.Rdf Library.Runs Library.Programs Library.Serde Ids Model Store Auth Domain Api Api.Updating

/-- What is held is what the two updates leave when one is made after the other. -/
def CarriesBoth (server : Server) (state : State) (first second : Update) (final : State) : Prop :=
  final = (second.serve server (first.serve server state).2).2 ∨ final = (first.serve server (second.serve server state).2).2

/-- Two updates of records, under way together. -/
def together (server : Server) (state : State) (first second : Update) : Pool (desk server) (AppResult Answer) :=
  ⟨state, [first.program server, second.program server]⟩

/-- The updates go on, and nothing new begins. -/
def Onward {server : Server} (_ : Pool (desk server) (AppResult Answer)) (turn : Turn (desk server) (AppResult Answer)) :
    Prop := ∃ place, turn = .next place

/-- Both updates have answered, and neither was refused. -/
def BothMade {server : Server} (pool : Pool (desk server) (AppResult Answer)) : Prop :=
  ∃ one two, pool.running = [.done (.ok one), .done (.ok two)]

section Serving

variable {server : Server} {state : State} {first second : Update}

theorem serve_program (update : Update) (rest : List (Handler server)) :
    Program.serve (update.program server :: rest) state = Program.serve rest (update.serve server state).2 := by
  rw [← update.finish_program state]
  rfl

theorem carriesBoth_of_order {order : List Nat} (both : order.Perm [0, 1]) :
    CarriesBoth server state first second (Program.serve
      (order.filterMap (fun place => [first.program server, second.program server][place]?)) state) := by
  rcases List.perm_pair.1 both with rfl | rfl
  · left
    change Program.serve [first.program server, second.program server] state = _
    rw [serve_program, serve_program]
    rfl
  · right
    change Program.serve [second.program server, first.program server] state = _
    rw [serve_program, serve_program]
    rfl

end Serving

section Specimen

open Specimen

def bothMade (pool : Pool (desk (registry [])) (AppResult Answer)) : Bool :=
  match pool.running with
  | [.done (.ok _), .done (.ok _)] => true
  | _ => false

theorem bothMade_of {pool : Pool (desk (registry [])) (AppResult Answer)} (made : bothMade pool = true) : BothMade pool := by
  unfold bothMade at made
  split at made
  · rename_i one two same
    exact ⟨one, two, same⟩
  · cases made

/-- One deployment, as an administrator registered it. -/
def heldOnce : State := (Instances.create (registry []) State.empty (draw "a") rootPrincipal { label := "one" }).state

def relabel : Update := .instance_ (draw "b") rootPrincipal "aa" (.object [("label", .string "two")])

def redescribe : Update := .instance_ (draw "c") rootPrincipal "aa" (.object [("description", .string "said")])

/-- What the first of the two says. -/
def saidTwo : Quad := ⟨.named "https://reg.example/instance/aa", Ns.t Ns.rdfs "label", .simple "two", Ns.gLocal⟩

end Specimen

end ToolArtifactRegistry.Laws
