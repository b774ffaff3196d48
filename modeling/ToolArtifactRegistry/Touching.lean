import ToolArtifactRegistry.Store

/-! What a transaction touches: the quads it deletes with what their subjects are owned by, and the
quads it writes. A description none of whose quads is touched stays as it is. -/
namespace ToolArtifactRegistry.Store

open Library.Rdf Library.Worklist

/-- Whether one of the subjects a transaction replaces owns what the quad is about. -/
def dooms (data : Dataset) (targets : List (String × String)) (quad : Quad) : Bool :=
  targets.any (fun target => inGraph target.2 quad && decide (quad.subject ∈ owned data target.2 target.1))

def touched (data : Dataset) (tx : GraphTx) : List Quad := tx.insert ++ data.matching (dooms data tx.deleteSubjects)

section Deleting

variable {data : Dataset} {graph : String} {quad : Quad}

theorem dooms_iff {targets : List (String × String)} :
    dooms data targets quad = true ↔
      ∃ target ∈ targets, quad.graph = target.2 ∧ Owns data target.2 (.named target.1) quad.subject := by
  simp only [dooms, List.any_eq_true, Bool.and_eq_true, inGraph, decide_eq_true_eq, mem_owned]

/-- Deleting one subject leaves every other its way to what the first did not own. -/
theorem owns_deleteSubject {subject : String} {source node : Node} (owns : Owns data graph source node)
    (spared : ¬Owns data graph (.named subject) node) : Owns (deleteSubject data (subject, graph)) graph source node := by
  induction owns with
  | refl => exact Relation.ReflTransGen.refl
  | @tail middle next _ link ih =>
    have before : ¬Owns data graph (.named subject) middle := fun path => spared (path.tail link)
    obtain ⟨quad, held, here, goes⟩ := mem_edges.1 link
    obtain ⟨mem, inside⟩ := Dataset.mem_matching.1 held
    have stays : quad ∈ deleteSubject data (subject, graph) :=
      mem_deleteSubject.2 ⟨mem, fun gone => before (here ▸ gone.2)⟩
    exact (ih before).tail (mem_edges.2 ⟨quad, Dataset.mem_matching.2 ⟨stays, inside⟩, here, goes⟩)

theorem mem_of_mem_deleteSubject {target : String × String} (mem : quad ∈ deleteSubject data target) : quad ∈ data :=
  (Dataset.mem_discard.1 mem).1

/-- Subjects that are deleted from one graph go with what each of them owned at the start. -/
theorem mem_deleteSubjects {targets : List (String × String)} (one : ∀ target ∈ targets, target.2 = graph) :
    quad ∈ targets.foldl deleteSubject data ↔ quad ∈ data ∧ dooms data targets quad = false := by
  induction targets generalizing data with
  | nil => simp [dooms]
  | cons target rest ih =>
    obtain ⟨subject, place⟩ := target
    obtain rfl : place = graph := one _ List.mem_cons_self
    have others : ∀ target ∈ rest, target.2 = place := fun target mem => one target (List.mem_cons_of_mem _ mem)
    rw [List.foldl_cons, ih others, mem_deleteSubject]
    have split : dooms data ((subject, place) :: rest) quad = true ↔
        (quad.graph = place ∧ Owns data place (.named subject) quad.subject) ∨ dooms data rest quad = true := by
      simp only [dooms_iff, List.mem_cons, exists_eq_or_imp]
    simp only [← Bool.not_eq_true, split, not_or]
    constructor
    · rintro ⟨⟨held, kept⟩, spared⟩
      refine ⟨held, kept, fun doomed => spared ?_⟩
      obtain ⟨target, mem, here, owns⟩ := dooms_iff.1 doomed
      refine dooms_iff.2 ⟨target, mem, here, ?_⟩
      rw [others target mem] at here owns ⊢
      exact owns_deleteSubject owns (fun path => kept ⟨here, path⟩)
    · rintro ⟨held, kept, spared⟩
      refine ⟨⟨held, kept⟩, fun doomed => spared ?_⟩
      obtain ⟨target, mem, here, owns⟩ := dooms_iff.1 doomed
      exact dooms_iff.2 ⟨target, mem, here, owns_mono (fun _ => mem_of_mem_deleteSubject) owns⟩

/-- A transaction that replaces subjects of one graph leaves what it does not touch, and what it
touches is there afterwards when it is written. -/
theorem mem_effect_replacing {tx : GraphTx} (cleared : tx.clearGraphs = []) (stripped : tx.deleteProperties = [])
    (one : ∀ target ∈ tx.deleteSubjects, target.2 = graph) :
    quad ∈ effect data tx ↔ quad ∈ tx.insert ∨ quad ∈ data ∧ dooms data tx.deleteSubjects quad = false := by
  rw [effect, cleared, stripped, Dataset.mem_extend, or_comm]
  exact or_congr_right (mem_deleteSubjects one)

end Deleting

section Describing

variable {data other : Dataset} {subject : String}

theorem mem_ring_same
    (same : ∀ quad, Reaches (edges data.quads) (.named subject) quad.subject → (quad ∈ other ↔ quad ∈ data))
    (distance : Nat) (node : Node) :
    node ∈ ring (edges other.quads) (.named subject) distance ↔
      node ∈ ring (edges data.quads) (.named subject) distance := by
  induction distance generalizing node with
  | zero => rfl
  | succ distance ih =>
    rw [mem_ring_succ, mem_ring_succ]
    apply exists_congr
    intro middle
    rw [ih middle]
    apply and_congr_right
    intro inRing
    have reached := reaches_of_mem_ring inRing
    constructor
    · intro link
      obtain ⟨quad, held, here, goes⟩ := mem_edges.1 link
      exact mem_edges.2 ⟨quad, (same quad (here ▸ reached)).1 held, here, goes⟩
    · intro link
      obtain ⟨quad, held, here, goes⟩ := mem_edges.1 link
      exact mem_edges.2 ⟨quad, (same quad (here ▸ reached)).2 held, here, goes⟩

/-- Two stores that hold the same about what a subject owns describe it alike. -/
theorem mem_describe_same
    (same : ∀ quad, Reaches (edges data.quads) (.named subject) quad.subject → (quad ∈ other ↔ quad ∈ data))
    (quad : Quad) : quad ∈ describeQuads other subject ↔ quad ∈ describeQuads data subject := by
  have levels : ∀ depth quad, quad ∈ level other subject depth ↔ quad ∈ level data subject depth := by
    intro depth quad
    rw [mem_level, mem_level, mem_ring_same same]
    apply and_congr_left
    intro inRing
    exact same quad (reaches_of_mem_ring inRing)
  have cut : truncated other subject = truncated data subject := by
    funext depth
    rw [Bool.eq_iff_iff]
    simp only [truncated, List.any_eq_true, decide_eq_true_eq, List.mem_flatMap, List.mem_map, levels]
  have whole : ∀ depth deeper, quad ∈ escalate other subject depth deeper ↔
      quad ∈ escalate data subject depth deeper := by
    intro depth deeper
    induction deeper generalizing depth with
    | nil => simp only [escalate, mem_describeTo, levels]
    | cons next rest ih =>
      simp only [escalate, cut]
      split
      · exact ih next
      · simp only [mem_describeTo, levels]
  exact whole _ _

/-- A description stays as it is when whatever of it is touched was there before and is written again. -/
theorem describe_untouched {tx : GraphTx} {graph : String} (cleared : tx.clearGraphs = [])
    (stripped : tx.deleteProperties = [])
    (one : ∀ target ∈ tx.deleteSubjects, target.2 = graph)
    (apart : ∀ quad ∈ touched data tx, quad.subject ∈ reach (edges data.quads) (.named subject) →
      quad ∈ data ∧ quad ∈ tx.insert) (quad : Quad) :
    quad ∈ describeQuads (effect data tx) subject ↔ quad ∈ describeQuads data subject := by
  apply mem_describe_same
  intro quad path
  have reached := mem_reach.2 path
  rw [mem_effect_replacing cleared stripped one]
  constructor
  · rintro (written | ⟨held, _⟩)
    · exact (apart quad (List.mem_append_left _ written) reached).1
    · exact held
  · intro held
    by_cases doomed : dooms data tx.deleteSubjects quad = true
    · exact Or.inl (apart quad (List.mem_append_right _ (Dataset.mem_matching.2 ⟨held, doomed⟩)) reached).2
    · exact Or.inr ⟨held, by simpa using doomed⟩

end Describing

end ToolArtifactRegistry.Store
