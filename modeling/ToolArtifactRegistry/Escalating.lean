import ToolArtifactRegistry.Library.Distance
import ToolArtifactRegistry.Store

/-! The loop behind a description: the chain is doubled until the deepest level reaches no node that
a shallower one did not. -/
namespace ToolArtifactRegistry.Store

open Library.Rdf Library.Worklist Library.Text

/-- Where escalation gives up. -/
def maxDepth : Nat := 32

/-- The loop with fuel for its turns, one query a turn. -/
def describeLoop (data : Dataset) (subject : String) : Nat → Nat → Option (List Quad)
  | 0, _ => none
  | fuel + 1, depth =>
    if !truncated data subject depth then some (describeTo data subject depth)
    else if maxDepth ≤ depth then some (describeTo data subject depth)
    else describeLoop data subject fuel (min (depth * 2) maxDepth)

section Loop

variable {data : Dataset} {subject : String}

/-- A turn that goes on goes strictly deeper, so the turns are bounded by the depth left. -/
theorem describeLoop_ends {fuel depth : Nat} (begun : 0 < depth) (fed : 0 < fuel) (enough : maxDepth < fuel + depth) :
    ∃ quads, describeLoop data subject fuel depth = some quads := by
  induction fuel generalizing depth with
  | zero => omega
  | succ fuel ih =>
    simp only [describeLoop]
    split
    · exact ⟨_, rfl⟩
    · split
      · exact ⟨_, rfl⟩
      · rename_i shallow
        simp only [maxDepth] at enough shallow ⊢
        exact ih (by omega) (by omega) (by simp only [maxDepth]; omega)

/-- What the loop returns is the description to some depth, where nothing was cut off or the loop gave up. -/
theorem describeLoop_stops {fuel depth : Nat} {quads : List Quad}
    (returned : describeLoop data subject fuel depth = some quads) :
    ∃ reached, quads = describeTo data subject reached ∧
      (truncated data subject reached = false ∨ maxDepth ≤ reached) := by
  induction fuel generalizing depth with
  | zero => simp [describeLoop] at returned
  | succ fuel ih =>
    simp only [describeLoop] at returned
    split at returned
    · rename_i whole
      refine ⟨depth, (Option.some.inj returned).symm, Or.inl ?_⟩
      simpa using whole
    · split at returned
      · rename_i deepest
        exact ⟨depth, (Option.some.inj returned).symm, Or.inr deepest⟩
      · exact ih returned

/-- Four turns reach the greatest depth from the first one. -/
theorem describeLoop_four : describeLoop data subject 4 defaultDepth = some (describeQuads data subject) := by
  simp only [describeLoop, describeQuads, escalate, defaultDepth, maxDepth]
  by_cases first : truncated data subject 4 <;> by_cases second : truncated data subject 8 <;>
    by_cases third : truncated data subject 16 <;> simp [first, second, third]

end Loop

section Closure

variable {platform : Platform} {data : Dataset} {subject : String}

/-- An IRI begins with the name of its scheme, so none is written like a blank node. -/
def Schemed (platform : Platform) : Prop := ∀ label, platform.validIri ("_:" ++ label) = false

/-- Every named subject passed the parser that let it in. -/
def Parsed (platform : Platform) (data : Dataset) : Prop :=
  ∀ quad ∈ data, ∀ iri, quad.subject = .named iri → platform.validIri iri = true

/-- The subjects of a store are told apart by their keys. -/
theorem subjectKey_inj (schemed : Schemed platform) (parsed : Parsed platform data) {left right : Quad}
    (inLeft : left ∈ data) (inRight : right ∈ data) (same : subjectKey left.subject = subjectKey right.subject) :
    left.subject = right.subject := by
  have apart : ∀ quad ∈ data, ∀ iri label, quad.subject = .named iri → iri ≠ "_:" ++ label := by
    intro quad held iri label named written
    have valid := parsed quad held iri named
    rw [written, schemed label] at valid
    cases valid
  cases here : left.subject with
  | named iri =>
    cases there : right.subject with
    | named other => rw [here, there] at same; exact congrArg Node.named same
    | blank label => rw [here, there] at same; exact absurd same (apart left inLeft iri label here)
  | blank label =>
    cases there : right.subject with
    | named iri => rw [here, there] at same; exact absurd same.symm (apart right inRight iri label there)
    | blank other =>
      rw [here, there] at same
      simp only [subjectKey, String.append_right_inj] at same
      rw [same]

/-- A description is cut off just when something is said about a node whose distance is its depth. -/
theorem truncated_iff (schemed : Schemed platform) (parsed : Parsed platform data) {depth : Nat} :
    truncated data subject depth = true ↔
      ∃ quad ∈ data, AtDistance (edges data.quads) (.named subject) depth quad.subject := by
  simp only [truncated, List.any_eq_true, decide_eq_true_eq, List.mem_flatMap, List.mem_map, List.mem_range]
  constructor
  · rintro ⟨quad, inLevel, fresh⟩
    obtain ⟨held, walked⟩ := mem_level.1 inLevel
    refine ⟨quad, held, walked, ?_⟩
    intro shorter less before
    exact fresh ⟨shorter, less, quad, mem_level.2 ⟨held, before⟩, rfl⟩
  · rintro ⟨quad, held, placed⟩
    refine ⟨quad, mem_level.2 ⟨held, placed.walked⟩, ?_⟩
    rintro ⟨shorter, less, other, inLevel, same⟩
    obtain ⟨otherHeld, before⟩ := mem_level.1 inLevel
    exact placed.least shorter less (subjectKey_inj schemed parsed otherHeld held same ▸ before)

/-- When nothing is said about a node at some distance, nothing is said about a node further away. -/
theorem near_of_whole (schemed : Schemed platform) (parsed : Parsed platform data) {depth : Nat}
    (whole : truncated data subject depth = false) {node : Node} (path : Reaches (edges data.quads) (.named subject) node) :
    ∃ distance ≤ depth, node ∈ ring (edges data.quads) (.named subject) distance := by
  obtain ⟨distance, placed⟩ := exists_atDistance path
  refine ⟨distance, ?_, placed.walked⟩
  by_contra further
  -- a shortest walk to it passes the depth, at a node that has a quad to walk on by
  have beyond : depth < distance := by omega
  obtain ⟨middle, between, next, link⟩ := placed.passes beyond
  obtain ⟨bridge, bridgeHeld, here, _⟩ := mem_edges.1 link
  have cut : truncated data subject depth = true :=
    (truncated_iff schemed parsed).2 ⟨bridge, bridgeHeld, here ▸ between⟩
  rw [whole] at cut
  cases cut

theorem nodup_eraseDups {α : Type} [DecidableEq α] (items : List α) : items.eraseDups.Nodup := by
  match items with
  | [] => simp
  | head :: tail =>
    have shorter : (tail.filter (fun other => !other == head)).length < tail.length + 1 :=
      Nat.lt_succ_of_le (List.length_filter_le _ tail)
    rw [List.eraseDups_cons, List.nodup_cons]
    refine ⟨?_, nodup_eraseDups _⟩
    simp [List.mem_eraseDups]
termination_by items.length

theorem nodup_describeTo (depth : Nat) : (describeTo data subject depth).Nodup := nodup_eraseDups _

/-- A description from which nothing was cut off, or that is as deep as the store reaches, is the owned closure. -/
theorem mem_describeTo_iff (schemed : Schemed platform) (parsed : Parsed platform data) {depth : Nat}
    (stopped : truncated data subject depth = false ∨ maxDepth ≤ depth)
    (shallow : ∀ node, Reaches (edges data.quads) (.named subject) node →
      ∃ distance ≤ maxDepth, AtDistance (edges data.quads) (.named subject) distance node) {quad : Quad} :
    quad ∈ describeTo data subject depth ↔
      quad ∈ data ∧ Reaches (edges data.quads) (.named subject) quad.subject := by
  rw [mem_describeTo]
  constructor
  · rintro ⟨distance, _, inLevel⟩
    obtain ⟨held, walked⟩ := mem_level.1 inLevel
    exact ⟨held, reaches_of_mem_ring walked⟩
  · rintro ⟨held, path⟩
    rcases stopped with whole | deepest
    · obtain ⟨distance, near, walked⟩ := near_of_whole schemed parsed whole path
      exact ⟨distance, near, mem_level.2 ⟨held, walked⟩⟩
    · obtain ⟨distance, near, placed⟩ := shallow _ path
      exact ⟨distance, near.trans deepest, mem_level.2 ⟨held, placed.walked⟩⟩

end Closure

end ToolArtifactRegistry.Store
