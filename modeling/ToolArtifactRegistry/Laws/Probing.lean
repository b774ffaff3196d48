import Mathlib.Data.List.Perm.Subperm
import ToolArtifactRegistry.Api.Prints
import ToolArtifactRegistry.Laws.Specimen
import ToolArtifactRegistry.Probing

/-! Which deployments the check loop gets to. -/
namespace ToolArtifactRegistry.Laws.Probing

open Library.Rdf Domain Rdf Build Store Client Health

/-! A choice without order. -/
section Choosing

variable {α : Type} {limit : Nat} {all : List α} (wanted : α → Bool)

/-- Every choice holds a wanted element, once the others alone do not fill it. -/
theorem wanted_of_limited {answer : List α} (limited : Limited limit all answer) (some_ : ∃ x ∈ all, wanted x = true)
    (few : (all.filter (fun x => !wanted x)).length < limit) : ∃ x ∈ answer, wanted x = true := by
  by_contra none_
  have others : answer.filter (fun x => !wanted x) = answer := by
    apply List.filter_eq_self.2
    intro x mem
    by_contra here
    exact none_ ⟨x, mem, by simpa using here⟩
  have bound : answer.length ≤ (all.filter (fun x => !wanted x)).length := by
    rw [← others]
    exact (limited.among.filter _).length_le
  have parts : all.length = (all.filter wanted).length + (all.filter (fun x => !wanted x)).length :=
    List.length_eq_length_filter_add wanted
  have one : 0 < (all.filter wanted).length := by
    obtain ⟨x, mem, here⟩ := some_
    exact List.length_pos_of_mem (List.mem_filter.2 ⟨mem, here⟩)
  have length := limited.length
  omega

/-- Otherwise the others may be all that is chosen. -/
theorem unwanted_limited (fails : (∃ x ∈ all, wanted x = true) → limit ≤ (all.filter (fun x => !wanted x)).length) :
    Limited limit all ((all.filter (fun x => !wanted x)).take limit) := by
  refine ⟨((List.take_sublist _ _).trans List.filter_sublist).subperm, ?_⟩
  rw [List.length_take]
  have parts : all.length = (all.filter wanted).length + (all.filter (fun x => !wanted x)).length :=
    List.length_eq_length_filter_add wanted
  by_cases some_ : ∃ x ∈ all, wanted x = true
  · have many := fails some_
    omega
  · have nothing : (all.filter wanted).length = 0 := by
      rw [List.length_eq_zero_iff, List.filter_eq_nil_iff]
      intro x mem here
      exact some_ ⟨x, mem, here⟩
    omega

end Choosing

/-! What is recorded leaves the query alone. -/
section Recording

variable (server : Server) (settings : Settings) (web : Web)

theorem record_matching {state : State} {now iri : String} {verdict : Verdict} {pattern : Quad → Bool}
    (apart : ∀ quad, pattern quad = true → quad.predicate ∉ recorded.map (Ns.t Ns.tar)) :
    (record server state now iri verdict).state.data.matching pattern = state.data.matching pattern := by
  rcases Outcome.commit_cases server state (recordTx server.platform now iri verdict) (fun _ => .ok ()) with same | changed
  · rw [record, same]
  · rw [record, changed]
    apply effect_matching
    · intro quad _ hit
      refine ⟨by simp [recordTx, recorded, GraphTx.extend, GraphTx.replaceProperty],
        by simp [recordTx, recorded, GraphTx.extend, GraphTx.replaceProperty], ?_⟩
      intro target mem
      have property : target.2.1 ∈ recorded.map (Ns.t Ns.tar) := by
        simp only [recordTx, recorded, List.foldl_cons, List.foldl_nil, GraphTx.extend, GraphTx.replaceProperty,
          List.nil_append, List.cons_append, List.mem_cons, List.not_mem_nil, or_false] at mem
        rcases mem with rfl | rfl | rfl <;> simp [recorded, Ns.t]
      rw [isProperty, decide_eq_false_iff_not]
      rintro ⟨_, predicate, _⟩
      exact apart quad hit (predicate ▸ property)
    · intro quad mem hit
      have own : quad ∈ describeLocal iri (verdictStatements server.platform now verdict) := by
        simpa [recordTx, recorded, GraphTx.extend, GraphTx.replaceProperty] using mem
      obtain ⟨_, _, said⟩ := Build.mem_finish.1 own
      exact absurd (Api.Health.verdict_speaks now verdict _ said) (apart quad hit)

theorem visit_matching {state : State} {one : Visit} {pattern : Quad → Bool}
    (apart : ∀ quad, pattern quad = true → quad.predicate ∉ recorded.map (Ns.t Ns.tar)) :
    (visit server settings web state one).data.matching pattern = state.data.matching pattern :=
  record_matching server apart

theorem solutions_congr {left right : Dataset}
    (same : ∀ pattern : Quad → Bool, (∀ quad, pattern quad = true → quad.predicate ∉ recorded.map (Ns.t Ns.tar)) →
      left.matching pattern = right.matching pattern) : solutions left = solutions right := by
  have typed : left.matching isInstance = right.matching isInstance := by
    apply same
    intro quad hit
    rw [(of_decide_eq_true hit).1]
    decide
  have spoken (i : Node) (predicate : String) (apart : predicate ∉ recorded.map (Ns.t Ns.tar)) :
      optionally left i predicate = optionally right i predicate := by
    unfold optionally
    rw [same (speaks i predicate)]
    intro quad hit
    rw [(of_decide_eq_true hit).2.1]
    exact apart
  have withdrawn (i : Node) : isTombstoned left i = isTombstoned right i := by
    unfold isTombstoned
    rw [Dataset.any_eq_matching, Dataset.any_eq_matching, same]
    intro quad hit
    rw [(of_decide_eq_true hit).2.1]
    decide
  have rows (i : Node) : solutionsOf left i = solutionsOf right i := by
    unfold solutionsOf
    rw [spoken i _ (by decide), spoken i _ (by decide)]
  unfold solutions instances
  rw [typed, funext rows, funext withdrawn]

theorem solutions_visit (state : State) (one : Visit) :
    solutions (visit server settings web state one).data = solutions state.data :=
  solutions_congr (fun _ apart => visit_matching server settings web apart)

theorem solutions_pass {state after : State} {visits : List Visit} (pass : Pass server settings web state visits after) :
    solutions after.data = solutions state.data := by
  rw [pass.2]
  clear pass
  induction visits generalizing state with
  | nil => rfl
  | cons one rest ih => rw [List.foldl_cons, ih, solutions_visit]

end Recording

/-! The deployments, and the runs that get to them. -/

/-- It has a health endpoint or an endpoint URL. -/
def carries (data : Dataset) (i : Node) : Bool :=
  data.any (fun quad => speaks i (Ns.t Ns.tar "healthEndpoint") quad || speaks i (Ns.t Ns.dcat "endpointURL") quad)

def deployments (data : Dataset) : List Node := (instances data).filter (carries data)

/-- A row from which a deployment is probed. -/
def leads (i : Node) (row : Solution) : Bool := (targetOf row).any (fun target => decide (Node.named target.iri = i))

def Probes (passes : List (List Visit)) (i : Node) : Prop := ∃ visits ∈ passes, ∃ one ∈ visits, Node.named one.target.iri = i

section Covering

variable (server : Server) (settings : Settings) (web : Web)

/-- As many passes as it takes to go through the deployments batch by batch probe each of them. -/
def Covers (state : State) : Prop :=
  ∀ passes after, CheckLoop server settings web state passes after →
    passes.length = ((deployments state.data).length + settings.batch - 1) / settings.batch →
      ∀ i ∈ deployments state.data, Probes passes i

/-- A row leads to the deployment, and those that lead elsewhere do not fill a batch. -/
def Room (data : Dataset) (i : Node) : Prop :=
  (∃ row ∈ solutions data, leads i row = true) ∧
    ((solutions data).filter (fun row => !leads i row)).length < settings.batch

variable {server settings web}

theorem probes_first {state middle : State} {visits : List Visit} {rest : List (List Visit)} {i : Node}
    (pass : Pass server settings web state visits middle) (room : Room settings state.data i) : Probes (visits :: rest) i := by
  obtain ⟨⟨answer, limited, listed⟩, _⟩ := pass
  obtain ⟨row, mem, here⟩ := wanted_of_limited (leads i) limited room.1 room.2
  obtain ⟨target, found, named⟩ := Option.any_eq_true _ _ |>.1 here
  have inside : target ∈ visits.map Visit.target := by
    rw [listed]
    exact List.mem_filterMap.2 ⟨row, mem, found⟩
  obtain ⟨one, held, rfl⟩ := List.mem_map.1 inside
  exact ⟨visits, List.mem_cons_self, one, held, of_decide_eq_true named⟩

/-- The visits of an answer when no request gets through. -/
def unanswered (answer : List Solution) : List Visit := (probeTargets answer).map (fun target => ⟨target, .unconnected, ""⟩)

/-- The store may give the same answer at every pass. -/
theorem same_loop {rows answer : List Solution} (limited : Limited settings.batch rows answer) (count : Nat) :
    ∀ state : State, solutions state.data = rows →
      ∃ after, CheckLoop server settings web state (List.replicate count (unanswered answer)) after := by
  induction count with
  | zero => exact fun state _ => ⟨state, .start state⟩
  | succ count ih =>
    intro state same
    have pass : Pass server settings web state (unanswered answer)
        ((unanswered answer).foldl (visit server settings web) state) :=
      ⟨⟨answer, same ▸ limited, by simp [unanswered, Function.comp_def]⟩, rfl⟩
    obtain ⟨after, loop⟩ := ih _ ((solutions_pass server settings web pass).trans same)
    exact ⟨after, .pass pass loop⟩

/-- A deployment for which there is no room is passed over for as long as the loop runs. -/
theorem starves {state : State} {i : Node} (full : ¬Room settings state.data i) (count : Nat) :
    ∃ passes after, CheckLoop server settings web state passes after ∧ passes.length = count ∧ ¬Probes passes i := by
  have limited := @unwanted_limited _ settings.batch (solutions state.data) (leads i)
    (fun some_ => not_lt.1 (fun few => full ⟨some_, few⟩))
  obtain ⟨after, loop⟩ := @same_loop server settings web _ _ limited count state rfl
  refine ⟨_, after, loop, List.length_replicate, ?_⟩
  rintro ⟨visits, mem, one, held, named⟩
  rw [List.eq_of_mem_replicate mem] at held
  obtain ⟨target, inside, rfl⟩ := List.mem_map.1 held
  obtain ⟨row, chosen, found⟩ := List.mem_filterMap.1 inside
  have elsewhere := (List.mem_filter.1 (List.mem_of_mem_take chosen)).2
  simp [leads, found, named] at elsewhere

theorem covers_iff (state : State) (pos : 0 < settings.batch) :
    Covers server settings web state ↔ ∀ i ∈ deployments state.data, Room settings state.data i := by
  constructor
  · intro covers i mem
    by_contra full
    obtain ⟨passes, after, loop, length, missed⟩ := @starves server settings web state i full _
    exact missed (covers passes after loop length i mem)
  · intro room passes after loop length i mem
    have some_ : 1 ≤ passes.length := by
      rw [length, Nat.le_div_iff_mul_le pos]
      have one := List.length_pos_of_mem mem
      omega
    cases loop with
    | start => exact absurd some_ (by simp)
    | pass pass loop => exact probes_first pass (room i mem)

end Covering

/-! Two deployments, probed one at a time. -/
section Pair

open Specimen

def deployed (iri : String) : List Quad :=
  [⟨.named iri, Ns.rdfType, .named Instance.typeSoftwareAgent, Ns.gLocal⟩,
    ⟨.named iri, Ns.t Ns.dcat "endpointURL", .named "https://tool.example/", Ns.gLocal⟩]

def alone : State := ⟨⟨deployed "https://reg.example/instance/a", by decide⟩, {}⟩

def pair : State := ⟨⟨deployed "https://reg.example/instance/a" ++ deployed "https://reg.example/instance/b", by decide⟩, {}⟩

def offline : Web := ⟨fun _ => .error "relative URL without a base", fun _ => ""⟩

theorem alone_covered : 0 < ({ batch := 1 } : Settings).batch ∧
    (Covers (registry []) { batch := 1 } offline alone ↔ ∀ i ∈ deployments alone.data, Room { batch := 1 } alone.data i) ∧
    Room { batch := 1 } alone.data (.named "https://reg.example/instance/a") :=
  ⟨by decide, covers_iff alone (by decide), by decide, by decide⟩

/-- Two passes of one probe each need not get to both. -/
theorem pair_not_covered : ¬Covers (registry []) { batch := 1 } offline pair := by
  intro covers
  have full : ¬Room { batch := 1 } pair.data (.named "https://reg.example/instance/b") := by
    rintro ⟨_, few⟩
    revert few
    decide
  obtain ⟨passes, after, loop, length, missed⟩ := @starves (registry []) { batch := 1 } offline pair _ full 2
  refine missed (covers passes after loop ?_ _ (by decide))
  rw [length]
  decide

end Pair

end ToolArtifactRegistry.Laws.Probing
