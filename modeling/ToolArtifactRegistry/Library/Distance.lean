import Mathlib.Data.Nat.Find
import ToolArtifactRegistry.Library.Descent
import ToolArtifactRegistry.Library.Worklist

/-! Distances in a graph of edges: the rings are walks of an exact length, and a node's first ring is
its distance. A shortest walk meets every smaller distance on its way. -/
namespace ToolArtifactRegistry.Library.Worklist

variable {α : Type} [DecidableEq α] {edges : List (α × α)} {start node : α}

/-- A walk is cut at any point. -/
theorem mem_ring_add {first second : Nat} :
    node ∈ ring edges start (first + second) ↔
      ∃ middle ∈ ring edges start first, node ∈ ring edges middle second := by
  induction second generalizing node with
  | zero => simp [ring]
  | succ second ih =>
    rw [Nat.add_succ, mem_ring_succ]
    constructor
    · rintro ⟨before, inRing, link⟩
      obtain ⟨middle, near, far⟩ := ih.1 inRing
      exact ⟨middle, near, mem_ring_succ.2 ⟨before, far, link⟩⟩
    · rintro ⟨middle, near, far⟩
      obtain ⟨before, inRing, link⟩ := mem_ring_succ.1 far
      exact ⟨before, ih.2 ⟨middle, near, inRing⟩, link⟩

/-- The rings are what the start reaches. -/
theorem reaches_iff_mem_ring : Reaches edges start node ↔ ∃ distance, node ∈ ring edges start distance := by
  constructor
  · intro path
    induction path with
    | refl => exact ⟨0, by simp [ring]⟩
    | tail _ link ih =>
      obtain ⟨distance, inRing⟩ := ih
      exact ⟨distance + 1, mem_ring_succ.2 ⟨_, inRing, link⟩⟩
  · rintro ⟨distance, inRing⟩
    exact reaches_of_mem_ring inRing

/-- A node at this distance: a walk of that length ends there and no shorter one does. -/
structure AtDistance (edges : List (α × α)) (start : α) (distance : Nat) (node : α) : Prop where
  walked : node ∈ ring edges start distance
  least : ∀ shorter < distance, node ∉ ring edges start shorter

theorem exists_atDistance (path : Reaches edges start node) : ∃ distance, AtDistance edges start distance node := by
  have somewhere := reaches_iff_mem_ring.1 path
  exact ⟨Nat.find somewhere, Nat.find_spec somewhere, fun _ shorter => Nat.find_min somewhere shorter⟩

/-- A node in a ring is no further away than that. -/
theorem AtDistance.le {distance length : Nat} (placed : AtDistance edges start distance node)
    (walked : node ∈ ring edges start length) : distance ≤ length := by
  by_contra shorter
  exact placed.least length (by omega) walked

/-- A shortest walk meets every smaller distance, at a node with an edge leading on. -/
theorem AtDistance.passes {distance before : Nat} (placed : AtDistance edges start distance node)
    (earlier : before < distance) : ∃ middle, AtDistance edges start before middle ∧ ∃ next, Linked edges middle next := by
  obtain ⟨rest, rfl⟩ : ∃ rest, distance = before + (1 + rest) := ⟨distance - before - 1, by omega⟩
  obtain ⟨middle, near, far⟩ := mem_ring_add.1 placed.walked
  refine ⟨middle, ⟨near, ?_⟩, ?_⟩
  · -- a shorter way to the middle would be a shorter way to the end
    intro shorter less walked
    exact placed.least (shorter + (1 + rest)) (by omega) (mem_ring_add.2 ⟨middle, walked, far⟩)
  · obtain ⟨next, link, _⟩ := mem_ring_add.1 far
    obtain ⟨_, here, leads⟩ := mem_ring_succ.1 link
    rw [ring, List.mem_singleton] at here
    exact ⟨next, here ▸ leads⟩

end ToolArtifactRegistry.Library.Worklist

/-! What a walk that goes no deeper than a bound comes to, against what lies within that many edges. A node that is
first come to at the bound is not followed, and that hides what lies behind it when a shorter way leads there. -/
namespace ToolArtifactRegistry.Library.Reaching

open Descent Worklist

variable {α : Type} [DecidableEq α]

/-- A way of no more edges than this ends at the node. -/
def Nearby (edges : List (α × α)) (root : α) (bound : Nat) (node : α) : Prop :=
  ∃ distance < bound + 1, node ∈ ring edges root distance

instance (edges : List (α × α)) (root : α) (bound : Nat) : DecidablePred (Nearby edges root bound) :=
  fun node => inferInstanceAs (Decidable (∃ distance < bound + 1, node ∈ ring edges root distance))

/-- The node has a link from one that is come to before the bound, or is where the walk starts. -/
def ComeTo (edges : List (α × α)) (root : α) (bound : Nat) (met : List (α × Nat)) (node : α) : Prop :=
  node = root ∨ ∃ entry ∈ met, entry.2 < bound ∧ Linked edges entry.1 node

/-- Of the nodes that are first come to at the bound though a shorter way leads there, each link to something that
matters is also a link of a node that is come to earlier. -/
def Unhidden (edges : List (α × α)) (root : α) (bound : Nat) (told : α → Prop) (met : List (α × Nat)) : Prop :=
  ∀ late, (late, bound) ∈ met → (∃ distance < bound, late ∈ ring edges root distance) →
    ∀ target, Linked edges late target → told target → ComeTo edges root bound met target

section

variable {edges : List (α × α)} {links : Nat → α → List α} {root : α} {bound : Nat}

/-- All that the walk comes to lies within the bound. -/
theorem nearby_of_met (links_iff : ∀ depth node child, child ∈ links depth node ↔ Linked edges node child) {node : α}
    (met : node ∈ nodes (descend links bound 0 [] root)) : Nearby edges root bound node := by
  obtain ⟨depth, entry⟩ := mem_nodes.1 met
  have placed := (descend_grows bound 0 [] root).all (fun depth node => depth ≤ bound ∧ node ∈ ring edges root depth)
    ⟨Nat.zero_le _, List.mem_singleton_self _⟩
    (fun depth node child above here linked =>
      ⟨by omega, mem_ring_succ.2 ⟨node, here.2, (links_iff depth node child).1 linked⟩⟩)
    (fun _ _ absent => absurd absent List.not_mem_nil) node depth entry
  exact ⟨depth, by omega, placed.2⟩

/-- The links of a node that is come to before the bound are come to. -/
theorem met_of_comeTo (links_iff : ∀ depth node child, child ∈ links depth node ↔ Linked edges node child) {node : α}
    (comes : ComeTo edges root bound (descend links bound 0 [] root) node) :
    node ∈ nodes (descend links bound 0 [] root) := by
  rcases comes with start | ⟨entry, mem, early, linked⟩
  · rw [start]
    exact mem_descend bound 0 [] root
  · rcases descend_followed bound 0 [] root entry.1 entry.2 mem with absent | late | followed
    · exact absurd absent List.not_mem_nil
    · omega
    · exact followed ((links_iff entry.2 entry.1 node).2 linked)

/-- And what is come to is the start or has a link from a node that was come to before the bound. -/
theorem comeTo_of_met (links_iff : ∀ depth node child, child ∈ links depth node ↔ Linked edges node child) {node : α}
    (met : node ∈ nodes (descend links bound 0 [] root)) :
    ComeTo edges root bound (descend links bound 0 [] root) node := by
  obtain ⟨depth, entry⟩ := mem_nodes.1 met
  rcases (descend_grows bound 0 [] root).parent (node, depth) entry with absent | start | ⟨parent, above, known, linked, deeper⟩
  · exact absurd absent List.not_mem_nil
  · exact Or.inl (congrArg Prod.fst start)
  · have shallow : depth ≤ 0 + bound := descend_le (fun _ _ absent => absurd absent List.not_mem_nil) node depth entry
    dsimp only at deeper
    exact Or.inr ⟨(parent, above), known, by dsimp only; omega, (links_iff above parent node).1 linked⟩

/-- Everything that matters within the bound is come to exactly when nothing that matters is hidden. The way to a node
leads through nodes that matter, since they have links, so the induction is on its length. -/
theorem met_iff_unhidden (links_iff : ∀ depth node child, child ∈ links depth node ↔ Linked edges node child)
    {told : α → Prop} (linking : ∀ node child, Linked edges node child → told node) :
    (∀ node, told node → Nearby edges root bound node → node ∈ nodes (descend links bound 0 [] root)) ↔
      Unhidden edges root bound told (descend links bound 0 [] root) := by
  constructor
  · intro all late entry shorter target linked matters
    obtain ⟨distance, near, walked⟩ := shorter
    exact comeTo_of_met links_iff
      (all target matters ⟨distance + 1, by omega, mem_ring_succ.2 ⟨late, walked, linked⟩⟩)
  · intro unhidden node matters within
    obtain ⟨distance, near, walked⟩ := within
    induction distance generalizing node with
    | zero =>
      rw [ring, List.mem_singleton] at walked
      rw [walked]
      exact mem_descend bound 0 [] root
    | succ distance ih =>
      obtain ⟨before, here, linked⟩ := mem_ring_succ.1 walked
      have met := ih before (linking before node linked) (by omega) here
      obtain ⟨depth, entry⟩ := mem_nodes.1 met
      have shallow : depth ≤ 0 + bound :=
        descend_le (fun _ _ absent => absurd absent List.not_mem_nil) before depth entry
      apply met_of_comeTo links_iff
      by_cases early : depth < bound
      · exact Or.inr ⟨(before, depth), entry, early, linked⟩
      · have late : depth = bound := by omega
        exact unhidden before (late ▸ entry) ⟨distance, by omega, here⟩ node linked matters

end

end ToolArtifactRegistry.Library.Reaching
