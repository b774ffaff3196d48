import ToolArtifactRegistry.Api.Identities
import ToolArtifactRegistry.Laws.Specimen
import ToolArtifactRegistry.RegistryTokens

/-! Two things that are advertised are one artifact exactly when the texts they are remembered by run
together to the same. -/
namespace ToolArtifactRegistry.Laws

open Library.Runs Library.Text Library.Serde Library.Naming Ids Model Auth Domain Api Registry
open Identities (Described identity entryIdentity datasetIdentity Drawn entriesNamed datasetsNamed)

section Assigned

variable (server : Server)

/-- What an event answers: the things it was told of, with their artifacts. -/
def assigned (state : State) : Event → List (Described × String)
  | .request credential draw action =>
    match principalOf server state draw.now credential with
    | .error _ => []
    | .ok principal =>
      match action with
      | .advertise input role => entriesNamed principal (Advertise.runInput server input.run) input.artifacts
          (Advertise.advertise server state draw principal input role).response
      | .ingest event => datasetsNamed server state.data event (Openlineage.ingest server state draw principal event).response
      | _ => []
  | _ => []

def assignments (events : List Event) : List (Described × String) :=
  remember (step server) (fun log state event => log ++ assigned server state event) [] State.empty events

def drawOf : Event → Option Draw
  | .request _ draw _ => some draw
  | _ => none

/-- No identifier is drawn twice. -/
def FreshDraws (events : List Event) : Prop :=
  (events.filterMap drawOf).Pairwise (fun early late => ∀ p q, early.id p ≠ late.id q) ∧
    ∀ draw ∈ events.filterMap drawOf, Function.Injective draw.id

/-- The artifact IRIs these requests may make up. -/
def DrawnBy (draws : List Draw) (iri : String) : Prop := ∃ draw ∈ draws, Drawn server.base draw iri

variable {server}

theorem drawn_apart {early late : Draw} {iri : String} (apart : ∀ p q, early.id p ≠ late.id q)
    (left : Drawn server.base early iri) (right : Drawn server.base late iri) : False := by
  obtain ⟨p, rfl⟩ := left
  obtain ⟨q, same⟩ := right
  exact apart p q (Identities.iriOf_inj same)

theorem create_names {state : State} {draw : Draw} {principal : Principal} (input : ArtifactIn)
    (unused : ∀ n, Drawn server.base draw n → ∀ k, state.ops.artifactForKey k ≠ some n) :
    Names (identity server) (Drawn server.base draw) state.ops.artifactForKey
      (Artifacts.create server state draw principal input).state.ops.artifactForKey [] := by
  rcases @createArtifact_ops server state draw principal input with same | ⟨key, remembered⟩
  · rw [same]
    exact Names.refl _ _
  · rw [remembered]
    cases known : state.ops.artifactForKey key with
    | some iri =>
      rw [Identities.artifactForKey_known known]
      exact Names.refl _ _
    | none =>
      rw [Identities.artifactForKey_new known]
      have drawn : Drawn server.base draw (mint server.base .artifact (draw.site 0)) := ⟨[0], rfl⟩
      exact Names.learn known drawn (unused _ drawn)

theorem perform_names {state : State} {draw : Draw} {credential : Option String} {principal : Principal} {action : Action}
    (made : principalOf server state draw.now credential = .ok principal) (injective : Function.Injective draw.id)
    (unused : ∀ n, Drawn server.base draw n → ∀ k, state.ops.artifactForKey k ≠ some n) :
    Names (identity server) (Drawn server.base draw) state.ops.artifactForKey
      (perform server state draw principal action).ops.artifactForKey
      (assigned server state (.request credential draw action)) := by
  by_cases quiet : writesKeys action = false
  · have nothing : assigned server state (.request credential draw action) = [] := by
      simp only [assigned, made]
      cases action <;> first | rfl | cases quiet
    obtain ⟨tokens, peers, same⟩ := @perform_tables server state draw principal action quiet
    rw [nothing, same]
    exact Names.refl _ _
  · cases action with
    | advertise input role =>
      simp only [assigned, made]
      exact Identities.advertise_names principal input role injective unused
    | ingest event =>
      simp only [assigned, made]
      exact Identities.ingest_names principal event injective unused
    | createArtifact input =>
      simp only [assigned, made]
      exact create_names input unused
    | _ => exact absurd rfl quiet

theorem step_names {state : State} {event : Event}
    (injective : ∀ draw ∈ (drawOf event).toList, Function.Injective draw.id)
    (unused : ∀ n, DrawnBy server (drawOf event).toList n → ∀ k, state.ops.artifactForKey k ≠ some n) :
    Names (identity server) (DrawnBy server (drawOf event).toList) state.ops.artifactForKey
      (step server state event).ops.artifactForKey (assigned server state event) := by
  by_cases other : ∀ credential draw action, event ≠ .request credential draw action
  · have nothing : assigned server state event = [] := by
      cases event with
      | request credential draw action => exact absurd rfl (other credential draw action)
      | _ => rfl
    obtain ⟨peers, queue, same⟩ := @background_ops server state event other
    rw [nothing, same]
    exact Names.refl _ _
  · simp only [not_forall, not_not] at other
    obtain ⟨credential, draw, action, rfl⟩ := other
    have mine : ∀ n, Drawn server.base draw n → DrawnBy server (drawOf (.request credential draw action)).toList n :=
      fun n drawn => ⟨draw, List.mem_singleton_self _, drawn⟩
    cases made : principalOf server state draw.now credential with
    | error e =>
      simp only [step, requested, assigned, made]
      exact Names.refl _ _
    | ok principal =>
      simp only [step, requested, made]
      exact (perform_names made (injective draw (List.mem_singleton_self _)) (fun n drawn => unused n (mine n drawn))).mono
        mine

/-- Over a whole run of fresh draws. -/
theorem run_names {state : State} {events : List Event} {log : List (Described × String)} {fresh : String → Prop}
    (draws : FreshDraws events) (names : Names (identity server) fresh (fun _ => none) state.ops.artifactForKey log)
    (apart : ∀ n, fresh n → ¬DrawnBy server (events.filterMap drawOf) n) :
    ∃ later, Names (identity server) later (fun _ => none) (run (step server) state events).ops.artifactForKey
      (remember (step server) (fun log state event => log ++ assigned server state event) log state events) := by
  induction events generalizing state log fresh with
  | nil => exact ⟨fresh, names⟩
  | cons event rest ih =>
    obtain ⟨distinct, injective⟩ := draws
    have listed : (event :: rest).filterMap drawOf = (drawOf event).toList ++ rest.filterMap drawOf := by
      rw [List.filterMap_cons]
      cases drawOf event <;> rfl
    rw [listed] at distinct injective apart
    rw [List.pairwise_append] at distinct
    have made := @step_names server state event (fun draw mem => injective draw (List.mem_append_left _ mem)) (by
      intro n drawn k held
      obtain ⟨draw, mem, here⟩ := drawn
      rcases names.minted held with nothing | old
      · cases nothing
      · exact apart n old ⟨draw, List.mem_append_left _ mem, here⟩)
    have both := names.trans made (fun n old drawn => by
      obtain ⟨draw, mem, here⟩ := drawn
      exact apart n old ⟨draw, List.mem_append_left _ mem, here⟩)
    refine ih ⟨distinct.2.1, fun draw mem => injective draw (List.mem_append_right _ mem)⟩ both ?_
    intro n used later
    obtain ⟨late, inRest, there⟩ := later
    rcases used with old | ⟨early, here, drawn⟩
    · exact apart n old ⟨late, List.mem_append_right _ inRest, there⟩
    · exact drawn_apart (distinct.2.2 early here late inRest) drawn there

theorem assignments_names {events : List Event} (draws : FreshDraws events) :
    ∃ fresh, Names (identity server) fresh (fun _ => none) (run (step server) State.empty events).ops.artifactForKey
      (assignments server events) :=
  run_names draws (Names.refl (fun _ => False) _) (fun _ never => never.elim)

end Assigned

section Claims

/-- An entry that brings neither an IRI nor a key of its own, or a dataset. -/
def Keyless : Described → Prop
  | .entry _ _ a => nonEmpty a.iri = none ∧ nonEmpty a.externalKey = none
  | .dataset _ _ _ => True

/-- They differ in what tells them apart. -/
def Differ : Described → Described → Prop
  | .entry instanceIri run a, .entry otherInstance otherRun b =>
    instanceIri ≠ otherInstance ∨ run.externalKey ≠ otherRun.externalKey ∨ a.title ≠ b.title ∨
      a.conformsTo ≠ b.conformsTo ∨ a.distributions ≠ b.distributions
  | .dataset namespace_ name _, .dataset otherNamespace otherName _ => namespace_ ≠ otherNamespace ∨ name ≠ otherName
  | _, _ => False

/-- The run key, the title, the type and the addresses of an entry, with nothing between them. -/
def joined (runKey : String) (a : ArtifactIn) : String :=
  join "" ([runKey, a.title.getD "", a.conformsTo.getD ""] ++
    a.distributions.flatMap (fun d => [d.downloadUrl.getD "", d.accessUrl.getD ""]))

/-- The registry takes them for one: both runs have a key and the joined texts are the same; or the datasets
lead to the same artifact by their symlinks, or by the text `namespace#name`. -/
def Merged (known : String → Option String) : Described → Described → Prop
  | .entry _ run a, .entry _ otherRun b => ∃ key ∈ run.externalKey, ∃ other ∈ otherRun.externalKey, joined key a = joined other b
  | .dataset namespace_ name linked, .dataset otherNamespace otherName otherLinked =>
    Identity.Same known (datasetIdentity namespace_ name linked) (datasetIdentity otherNamespace otherName otherLinked)
  | _, _ => False

theorem derivedKey_eq_iff {server : Server} (digest : ∀ xs ys, server.platform.digest16 xs = server.platform.digest16 ys ↔
      join "" xs = join "" ys) {key other : String} {a b : ArtifactIn} :
    Advertise.derivedKey server key a = Advertise.derivedKey server other b ↔ joined key a = joined other b := by
  unfold Advertise.derivedKey joined
  rw [← digest]
  constructor
  · intro same
    have texts := congrArg String.toList same
    simp only [String.toList_append, List.append_cancel_left_eq] at texts
    exact String.toList_inj.1 texts
  · intro same
    rw [same]

theorem entryIdentity_keyless {server : Server} {run : RunIn} {a : ArtifactIn} (iri : nonEmpty a.iri = none)
    (key : nonEmpty a.externalKey = none) : entryIdentity server run a =
      match run.externalKey with
      | some runKey => .keyed (Advertise.derivedKey server runKey a)
      | none => .new := by
  unfold entryIdentity Advertise.artifactKey
  rw [iri, key]
  cases run.externalKey <;> rfl

theorem artifacts_apart (server : Server) (digest : ∀ xs ys, server.platform.digest16 xs = server.platform.digest16 ys ↔
      join "" xs = join "" ys) (events : List Event) (draws : FreshDraws events) :
    ∀ x ∈ assignments server events, ∀ y ∈ assignments server events, Keyless x.1 → Keyless y.1 → Differ x.1 y.1 →
      (x.2 ≠ y.2 ↔ ¬Merged (run (step server) State.empty events).ops.artifactForKey x.1 y.1) := by
  obtain ⟨fresh, names⟩ := @assignments_names server _ draws
  intro x left y right keylessX keylessY differ
  rw [not_iff_not]
  obtain ⟨thing, iri⟩ := x
  obtain ⟨other, otherIri⟩ := y
  have different : thing ≠ other := by
    rintro rfl
    cases thing <;> simp [Differ] at differ
  cases thing with
  | entry instanceIri run a =>
    cases other with
    | dataset => exact differ.elim
    | entry otherInstance otherRun b =>
      have first : identity server (.entry instanceIri run a) = _ := entryIdentity_keyless keylessX.1 keylessX.2
      have second : identity server (.entry otherInstance otherRun b) = _ := entryIdentity_keyless keylessY.1 keylessY.2
      rw [names.eq_iff left right different]
      · rw [first, second]
        show _ ↔ ∃ key ∈ run.externalKey, ∃ other ∈ otherRun.externalKey, joined key a = joined other b
        cases run.externalKey with
        | none => simp [Identity.Same]
        | some key =>
          cases otherRun.externalKey with
          | none => simp [Identity.Same]
          | some otherKey => simp [Identity.Same, derivedKey_eq_iff digest]
      · rw [first, second]
        cases run.externalKey <;> cases otherRun.externalKey <;> trivial
  | dataset namespace_ name linked =>
    cases other with
    | entry => exact differ.elim
    | dataset otherNamespace otherName otherLinked =>
      rw [names.eq_iff left right different]
      · exact Iff.rfl
      · show (datasetIdentity _ _ _).Comparable (datasetIdentity _ _ _)
        cases linked <;> cases otherLinked <;> trivial

instance (thing : Described) : Decidable (Keyless thing) :=
  match thing with
  | .entry _ _ a => inferInstanceAs (Decidable (nonEmpty a.iri = none ∧ nonEmpty a.externalKey = none))
  | .dataset _ _ _ => isTrue trivial

instance (thing other : Described) : Decidable (Differ thing other) :=
  match thing, other with
  | .entry instanceIri run a, .entry otherInstance otherRun b =>
    inferInstanceAs (Decidable (instanceIri ≠ otherInstance ∨ run.externalKey ≠ otherRun.externalKey ∨ a.title ≠ b.title ∨
      a.conformsTo ≠ b.conformsTo ∨ a.distributions ≠ b.distributions))
  | .dataset namespace_ name _, .dataset otherNamespace otherName _ =>
    inferInstanceAs (Decidable (namespace_ ≠ otherNamespace ∨ name ≠ otherName))
  | .entry _ _ _, .dataset _ _ _ => isFalse id
  | .dataset _ _ _, .entry _ _ _ => isFalse id

instance (known : String → Option String) (thing other : Described) : Decidable (Merged known thing other) :=
  match thing, other with
  | .entry _ run a, .entry _ otherRun b =>
    decidable_of_iff (run.externalKey.any (fun key => otherRun.externalKey.any (fun other =>
      decide (joined key a = joined other b))) = true) (by simp [Merged, Option.any_eq_true])
  | .dataset namespace_ name linked, .dataset otherNamespace otherName otherLinked =>
    inferInstanceAs (Decidable (Identity.Same known (datasetIdentity namespace_ name linked)
      (datasetIdentity otherNamespace otherName otherLinked)))
  | .entry _ _ _, .dataset _ _ _ => isFalse id
  | .dataset _ _ _, .entry _ _ _ => isFalse id

end Claims

section Specimen

open Specimen

/-- Two deployments, each with a token of its own, run a build of the same number. -/
def deployments : List Event :=
  [numbered "root" 0 (.createInstance { label := "one" }), numbered "root" 1 (.createInstance { label := "two" }),
    numbered "root" 2 (.mintToken ".." { scopes := ["advertise:produce"] }),
    numbered "root" 3 (.mintToken "x.." { scopes := ["advertise:produce"] })]

def ofOne (number : Nat) (action : Action) : Event := numbered "tar_xx.._xx.x." number action

def ofTwo (number : Nat) (action : Action) : Event := numbered "tar_xxx.._xxx.x." number action

def report (runKey : String) (title : String) (type : Option String) : Action :=
  .advertise { run := { externalKey := some runKey }, artifacts := [{ title := some title, conformsTo := type }] } .produced

def dataset (namespace_ name : String) : Json :=
  .object [("namespace", .string namespace_), ("name", .string name)]

def produced (runId : String) (datasets : List Json) : Action :=
  .ingest (.object [("eventType", .string "COMPLETE"), ("run", .object [("runId", .string runId)]),
    ("outputs", .array datasets)])

/-- Two deployments with the same build number. -/
def sameBuild : List Event :=
  deployments ++ [ofOne 4 (report "7" "report" none), ofTwo 5 (report "7" "report" none)]

/-- One build that gives the type in the field for it, then at the end of the title. -/
def sameTexts : List Event :=
  deployments ++ [ofOne 4 (report "7" "data" (some "https://w3id.org/tar/ns#TabularDataset")),
    ofOne 5 (report "7" "datahttps://w3id.org/tar/ns#TabularDataset" none)]

/-- Two datasets, with the separator in the namespace of one and in the name of the other. -/
def sameNames : List Event := deployments ++ [ofOne 4 (produced "r" [dataset "a#b" "c", dataset "a" "b#c"])]

theorem freshDraws_serial {events : List Event} {numbers : List Nat} (drawn : events.filterMap drawOf = numbers.map serial)
    (apart : numbers.Nodup) : FreshDraws events := by
  unfold FreshDraws
  rw [drawn]
  constructor
  · rw [List.pairwise_map]
    exact apart.imp (fun different p q same => different (serial_id_inj same).1)
  · intro draw mem
    obtain ⟨number, _, rfl⟩ := List.mem_map.1 mem
    exact fun p q same => (serial_id_inj same).2

/-- Two reports of one build under titles of their own. -/
def twoReports : List Event := deployments ++ [ofOne 4 (report "7" "report" none), ofOne 5 (report "7" "table" none)]

theorem reports_apart : ∃ x ∈ assignments (registry []) twoReports, ∃ y ∈ assignments (registry []) twoReports,
    Differ x.1 y.1 ∧ x.2 ≠ y.2 := by
  obtain ⟨x, left, y, right, keylessX, keylessY, differ, apart⟩ : ∃ x ∈ assignments (registry []) twoReports,
      ∃ y ∈ assignments (registry []) twoReports, Keyless x.1 ∧ Keyless y.1 ∧ Differ x.1 y.1 ∧
        ¬Merged (run (step (registry [])) State.empty twoReports).ops.artifactForKey x.1 y.1 := by decide +kernel
  have draws : FreshDraws twoReports := @freshDraws_serial twoReports [0, 1, 2, 3, 4, 5] rfl (by decide)
  exact ⟨x, left, y, right, differ,
    (artifacts_apart (registry []) (fun _ _ => Iff.rfl) twoReports draws x left y right keylessX keylessY differ).2 apart⟩

/-- What differs is one artifact. -/
def Collapses (events : List Event) : Prop :=
  ∃ x ∈ assignments (registry []) events, ∃ y ∈ assignments (registry []) events,
    Keyless x.1 ∧ Keyless y.1 ∧ Differ x.1 y.1 ∧ x.2 = y.2

instance (events : List Event) : Decidable (Collapses events) :=
  inferInstanceAs (Decidable (∃ x ∈ assignments (registry []) events, ∃ y ∈ assignments (registry []) events,
    Keyless x.1 ∧ Keyless y.1 ∧ Differ x.1 y.1 ∧ x.2 = y.2))

theorem different_artifacts_collapse : Collapses sameBuild ∧ Collapses sameTexts ∧ Collapses sameNames := by
  decide +kernel

end Specimen

end ToolArtifactRegistry.Laws
