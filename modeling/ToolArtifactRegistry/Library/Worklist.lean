import Mathlib.Logic.Relation
import Mathlib.Data.List.Dedup

/-! Depth-first search over a list of edges, run with exactly the fuel it can use up, and the
rings of nodes at a given distance. -/
namespace ToolArtifactRegistry.Library.Worklist

variable {α : Type} [DecidableEq α]

def successors (edges : List (α × α)) (node : α) : List α :=
  (edges.filter (fun edge => edge.1 = node)).map Prod.snd

@[simp] theorem mem_successors {edges : List (α × α)} {node other : α} :
    other ∈ successors edges node ↔ (node, other) ∈ edges := by
  simp only [successors, List.mem_map, List.mem_filter, decide_eq_true_eq]
  constructor
  · rintro ⟨⟨source, target⟩, ⟨mem, rfl⟩, rfl⟩
    exact mem
  · intro mem
    exact ⟨(node, other), ⟨mem, rfl⟩, rfl⟩

/-- The stack is popped at its head; the successors pushed last are popped first. -/
def search (edges : List (α × α)) : Nat → List α → List α → List α
  | 0, _, seen => seen
  | _ + 1, [], seen => seen
  | fuel + 1, node :: frontier, seen =>
    if node ∈ seen then search edges fuel frontier seen
    else search edges fuel ((successors edges node).reverse ++ frontier) (node :: seen)

def Linked (edges : List (α × α)) (source target : α) : Prop := (source, target) ∈ edges

def Reaches (edges : List (α × α)) : α → α → Prop := Relation.ReflTransGen (Linked edges)

/-- Edges whose source is still to be expanded. -/
def pending (edges : List (α × α)) (seen : List α) : List (α × α) :=
  edges.filter (fun edge => edge.1 ∉ seen)

theorem pending_split (edges : List (α × α)) (seen : List α) (node : α) (unseen : node ∉ seen) :
    (pending edges seen).length =
      (successors edges node).length + (pending edges (node :: seen)).length := by
  induction edges with
  | nil => rfl
  | cons edge rest ih =>
    simp only [pending, successors, List.length_map] at ih ⊢
    by_cases here : edge.1 = node
    · subst here
      simp only [List.filter_cons, List.mem_cons, true_or, not_true_eq_false, decide_false, unseen,
        not_false_eq_true, decide_true, if_true, List.length_cons] at ih ⊢
      simp only [Bool.false_eq_true, if_false]
      omega
    · by_cases old : edge.1 ∈ seen
      · simp only [List.filter_cons, List.mem_cons, here, old, false_or, not_true_eq_false,
          decide_false, Bool.false_eq_true, if_false] at ih ⊢
        exact ih
      · simp only [List.filter_cons, List.mem_cons, here, old, false_or, not_false_eq_true,
          decide_true, decide_false, Bool.false_eq_true, if_false, if_true, List.length_cons] at ih ⊢
        omega

theorem search_sound (edges : List (α × α)) (fuel : Nat) (frontier seen : List α) :
    ∀ node ∈ search edges fuel frontier seen,
      node ∈ seen ∨ ∃ start ∈ frontier, Reaches edges start node := by
  induction fuel generalizing frontier seen with
  | zero => intro node mem; exact Or.inl mem
  | succ fuel ih =>
    cases frontier with
    | nil => intro node mem; exact Or.inl mem
    | cons first rest =>
      intro node mem
      simp only [search] at mem
      split at mem
      · rcases ih rest seen node mem with old | ⟨start, inRest, path⟩
        · exact Or.inl old
        · exact Or.inr ⟨start, List.mem_cons_of_mem _ inRest, path⟩
      · rcases ih _ _ node mem with old | ⟨start, inNew, path⟩
        · rcases List.mem_cons.1 old with rfl | older
          · exact Or.inr ⟨node, by simp, Relation.ReflTransGen.refl⟩
          · exact Or.inl older
        · rcases List.mem_append.1 inNew with pushed | inRest
          · have link : Linked edges first start := mem_successors.1 (List.mem_reverse.1 pushed)
            exact Or.inr ⟨first, by simp, Relation.ReflTransGen.head link path⟩
          · exact Or.inr ⟨start, List.mem_cons_of_mem _ inRest, path⟩

/-- Every node already expanded has its successors expanded or waiting. -/
def Covered (edges : List (α × α)) (frontier seen : List α) : Prop :=
  ∀ node ∈ seen, ∀ other, Linked edges node other → other ∈ seen ∨ other ∈ frontier

omit [DecidableEq α] in
theorem covered_skip {edges : List (α × α)} {first : α} {rest seen : List α}
    (covered : Covered edges (first :: rest) seen) (old : first ∈ seen) : Covered edges rest seen := by
  intro node mem other link
  rcases covered node mem other link with inSeen | inFrontier
  · exact Or.inl inSeen
  · rcases List.mem_cons.1 inFrontier with rfl | inRest
    · exact Or.inl old
    · exact Or.inr inRest

theorem covered_expand {edges : List (α × α)} {first : α} {rest seen : List α}
    (covered : Covered edges (first :: rest) seen) :
    Covered edges ((successors edges first).reverse ++ rest) (first :: seen) := by
  intro node mem other link
  rcases List.mem_cons.1 mem with rfl | older
  · exact Or.inr (List.mem_append.2 (Or.inl (List.mem_reverse.2 (mem_successors.2 link))))
  · rcases covered node older other link with inSeen | inFrontier
    · exact Or.inl (List.mem_cons_of_mem _ inSeen)
    · rcases List.mem_cons.1 inFrontier with rfl | inRest
      · exact Or.inl (by simp)
      · exact Or.inr (List.mem_append.2 (Or.inr inRest))

/-- With fuel for the waiting nodes and the edges not yet followed, the search ends closed. -/
theorem search_closed (edges : List (α × α)) (fuel : Nat) (frontier seen : List α)
    (enough : frontier.length + (pending edges seen).length ≤ fuel) (covered : Covered edges frontier seen) :
    (∀ node ∈ frontier, node ∈ search edges fuel frontier seen) ∧
    (∀ node ∈ seen, node ∈ search edges fuel frontier seen) ∧
    Covered edges [] (search edges fuel frontier seen) := by
  induction fuel generalizing frontier seen with
  | zero =>
    have none_ : frontier = [] := List.length_eq_zero_iff.1 (by omega)
    subst none_
    exact ⟨by simp, fun _ mem => mem, covered⟩
  | succ fuel ih =>
    cases frontier with
    | nil => exact ⟨by simp, fun _ mem => mem, covered⟩
    | cons first rest =>
      simp only [search]
      split
      · rename_i old
        obtain ⟨waiting, kept, closed⟩ := ih rest seen
          (by simp only [List.length_cons] at enough; omega) (covered_skip covered old)
        refine ⟨?_, kept, closed⟩
        intro node mem
        rcases List.mem_cons.1 mem with rfl | inRest
        · exact kept node old
        · exact waiting node inRest
      · rename_i unseen
        have budget := pending_split edges seen first unseen
        obtain ⟨waiting, kept, closed⟩ := ih _ (first :: seen)
          (by simp only [List.length_cons, List.length_append, List.length_reverse] at enough ⊢; omega)
          (covered_expand covered)
        refine ⟨?_, fun node mem => kept node (List.mem_cons_of_mem _ mem), closed⟩
        intro node mem
        rcases List.mem_cons.1 mem with rfl | inRest
        · exact kept node (by simp)
        · exact waiting node (List.mem_append.2 (Or.inr inRest))

def reach (edges : List (α × α)) (start : α) : List α :=
  search edges (1 + edges.length) [start] []

/-- The search returns exactly what the edges reach. -/
theorem mem_reach {edges : List (α × α)} {start node : α} :
    node ∈ reach edges start ↔ Reaches edges start node := by
  constructor
  · intro mem
    rcases search_sound edges _ _ _ node mem with old | ⟨first, isStart, path⟩
    · simp at old
    · rw [List.mem_singleton] at isStart
      exact isStart ▸ path
  · intro path
    have bound : (pending edges ([] : List α)).length ≤ edges.length := List.length_filter_le _ _
    obtain ⟨waiting, _, closed⟩ := search_closed edges (1 + edges.length) [start] []
      (by simp only [List.length_singleton]; omega) (by simp [Covered])
    induction path with
    | refl => exact waiting start (by simp)
    | tail _ link ih =>
      rcases closed _ ih _ link with found | impossible
      · exact found
      · simp at impossible

/-- The nodes at the end of a walk of exactly this many edges. -/
def ring (edges : List (α × α)) (start : α) : Nat → List α
  | 0 => [start]
  | distance + 1 => ((ring edges start distance).flatMap (successors edges)).dedup

theorem mem_ring_succ {edges : List (α × α)} {start node : α} {distance : Nat} :
    node ∈ ring edges start (distance + 1) ↔
      ∃ before ∈ ring edges start distance, Linked edges before node := by
  simp [ring, Linked]

theorem reaches_of_mem_ring {edges : List (α × α)} {start node : α} {distance : Nat}
    (mem : node ∈ ring edges start distance) : Reaches edges start node := by
  induction distance generalizing node with
  | zero =>
    rw [ring, List.mem_singleton] at mem
    exact mem ▸ Relation.ReflTransGen.refl
  | succ distance ih =>
    obtain ⟨before, inRing, link⟩ := mem_ring_succ.1 mem
    exact (ih inRing).tail link

/-- Renaming the ends of every edge renames the rings, as long as no two nodes on the way get one name. -/
theorem mem_ring_image {left right : List (α × α)} {f : α → α} {known : α → Prop}
    (image : ∀ a b, (a, b) ∈ right ↔ ∃ x y, (x, y) ∈ left ∧ a = f x ∧ b = f y)
    (closed : ∀ x y, (x, y) ∈ left → known x ∧ known y)
    (apart : ∀ x y, known x → known y → f x = f y → x = y) {start : α} (begins : known start) (distance : Nat)
    {node : α} : node ∈ ring right (f start) distance ↔ ∃ x ∈ ring left start distance, known x ∧ node = f x := by
  induction distance generalizing node with
  | zero => simp [ring, begins]
  | succ distance ih =>
    rw [mem_ring_succ]
    constructor
    · rintro ⟨before, inRing, link⟩
      obtain ⟨x, inLeft, here, same⟩ := ih.mp inRing
      obtain ⟨y, z, edge, named, goes⟩ := (image before node).mp link
      obtain ⟨knownY, knownZ⟩ := closed y z edge
      have met : x = y := apart x y here knownY (same.symm.trans named)
      exact ⟨z, mem_ring_succ.mpr ⟨x, inLeft, by rw [met]; exact edge⟩, knownZ, goes⟩
    · rintro ⟨z, inLeft, knownZ, goes⟩
      obtain ⟨x, before, edge⟩ := mem_ring_succ.mp inLeft
      exact ⟨f x, ih.mpr ⟨x, before, (closed x z edge).1, rfl⟩, (image _ _).mpr ⟨x, z, edge, rfl, goes⟩⟩

end ToolArtifactRegistry.Library.Worklist
