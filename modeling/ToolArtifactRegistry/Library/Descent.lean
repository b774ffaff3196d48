import Mathlib.Data.List.Infix
import Mathlib.Data.List.Nodup

/-! A walk that goes down before it goes on, no deeper than a bound. A node is met once, at the depth of the way it
was first met on; how that depth compares with its distance is the matter of the second half. -/
namespace ToolArtifactRegistry.Library.Descent

variable {α : Type}

def nodes (met : List (α × Nat)) : List α := met.map Prod.fst

@[simp] theorem nodes_append (left right : List (α × Nat)) : nodes (left ++ right) = nodes left ++ nodes right := List.map_append

@[simp] theorem nodes_singleton (entry : α × Nat) : nodes [entry] = [entry.1] := rfl

theorem mem_nodes {met : List (α × Nat)} {node : α} : node ∈ nodes met ↔ ∃ depth, (node, depth) ∈ met := by
  unfold nodes
  simp

theorem nodes_subset {met out : List (α × Nat)} (subset : met ⊆ out) : nodes met ⊆ nodes out := List.map_subset _ subset

/-- What has been met when the walk comes back from a node that it still has so much room below. -/
def descend [DecidableEq α] (links : Nat → α → List α) : Nat → Nat → List (α × Nat) → α → List (α × Nat)
  | 0, depth, met, node => if node ∈ nodes met then met else met ++ [(node, depth)]
  | room + 1, depth, met, node =>
    if node ∈ nodes met then met
    else (links depth node).foldl (descend links room (depth + 1)) (met ++ [(node, depth)])

/-- Nodes are met one after the other, each for the first time and by a link from one that was met before. -/
inductive Grows (links : Nat → α → List α) (source : α × Nat) (deepest : Nat) (met : List (α × Nat)) :
    List (α × Nat) → Prop
  | same : Grows links source deepest met met
  | meets {out : List (α × Nat)} (entry : α × Nat) (before : Grows links source deepest met out)
      (new : entry.1 ∉ nodes out) (shallow : entry.2 ≤ deepest)
      (way : entry = source ∨ ∃ node depth, (node, depth) ∈ out ∧ entry.1 ∈ links depth node ∧ entry.2 = depth + 1) :
      Grows links source deepest met (out ++ [entry])

section Growth

variable {links : Nat → α → List α} {source : α × Nat} {deepest : Nat} {met out : List (α × Nat)}

theorem Grows.subset (grows : Grows links source deepest met out) : met ⊆ out := by
  induction grows with
  | same => exact fun _ mem => mem
  | meets entry _ _ _ _ ih => exact fun _ mem => List.mem_append_left _ (ih mem)

theorem Grows.begins (grows : Grows links source deepest met out) : met <+: out := by
  induction grows with
  | same => exact List.prefix_refl met
  | meets entry _ _ _ _ ih => exact ih.trans (List.prefix_append _ _)

theorem Grows.trans {later : List (α × Nat)} (first : Grows links source deepest met out)
    (second : Grows links source deepest out later) : Grows links source deepest met later := by
  induction second with
  | same => exact first
  | meets entry _ new shallow way ih => exact Grows.meets entry ih new shallow way

/-- What is met below a node is met below the node that links to it. -/
theorem Grows.above {child : α} {node : α} {depth : Nat} (linked : child ∈ links depth node) (here : (node, depth) ∈ met)
    (grows : Grows links (child, depth + 1) deepest met out) : Grows links source deepest met out := by
  induction grows with
  | same => exact Grows.same
  | meets entry before new shallow way ih =>
    apply Grows.meets entry ih new shallow
    right
    rcases way with same | other
    · exact ⟨node, depth, before.subset here, by rw [same]; exact linked, by rw [same]⟩
    · exact other

theorem Grows.nodup (grows : Grows links source deepest met out) (distinct : (nodes met).Nodup) : (nodes out).Nodup := by
  induction grows with
  | same => exact distinct
  | meets entry _ new _ _ ih =>
    rw [nodes_append, nodes_singleton]
    exact List.Nodup.append ih (List.nodup_singleton _) (by simpa using new)

/-- A node is met no deeper than there are nodes met before it. -/
theorem Grows.shallow (grows : Grows links source deepest met out) (begins : source.2 ≤ met.length)
    (start : ∀ node depth, (node, depth) ∈ met → depth < met.length) :
    ∀ node depth, (node, depth) ∈ out → depth < out.length := by
  induction grows with
  | same => exact start
  | @meets out entry before _ _ way ih =>
    intro node depth mem
    rw [List.length_append, List.length_singleton]
    rcases List.mem_append.1 mem with old | new
    · exact Nat.lt_succ_of_lt (ih node depth old)
    · have same : (node, depth) = entry := List.mem_singleton.1 new
      have longer := before.begins.length_le
      rcases way with isSource | ⟨parent, above, known, _, deeper⟩
      · rw [← isSource, ← same] at begins
        dsimp only at begins
        omega
      · rw [← same] at deeper
        have higher := ih parent above known
        dsimp only at deeper
        omega

/-- Whatever holds of the source and is handed on by links holds of all that is met. -/
theorem Grows.all (grows : Grows links source deepest met out) (holds : Nat → α → Prop)
    (first : holds source.2 source.1)
    (hands : ∀ depth node child, depth < deepest → holds depth node → child ∈ links depth node → holds (depth + 1) child)
    (start : ∀ node depth, (node, depth) ∈ met → holds depth node) :
    ∀ node depth, (node, depth) ∈ out → holds depth node := by
  induction grows with
  | same => exact start
  | @meets out entry _ _ shallow way ih =>
    intro node depth mem
    rcases List.mem_append.1 mem with old | new
    · exact ih node depth old
    · have same : (node, depth) = entry := List.mem_singleton.1 new
      rcases way with isSource | ⟨parent, above, known, linked, deeper⟩
      · rw [← isSource, ← same] at first
        exact first
      · rw [← same] at linked deeper shallow
        dsimp only at linked deeper shallow
        rw [deeper]
        exact hands above parent node (by omega) (ih parent above known) linked

/-- A node that is met otherwise than as the source was linked to from one met one step higher. -/
theorem Grows.parent (grows : Grows links source deepest met out) :
    ∀ entry ∈ out, entry ∈ met ∨ entry = source ∨
      ∃ node depth, (node, depth) ∈ out ∧ entry.1 ∈ links depth node ∧ entry.2 = depth + 1 := by
  induction grows with
  | same => exact fun entry mem => Or.inl mem
  | meets entry _ _ _ way ih =>
    intro other mem
    rcases List.mem_append.1 mem with old | new
    · rcases ih other old with before | isSource | ⟨node, depth, known, linked⟩
      · exact Or.inl before
      · exact Or.inr (Or.inl isSource)
      · exact Or.inr (Or.inr ⟨node, depth, List.mem_append_left _ known, linked⟩)
    · rw [List.mem_singleton.1 new]
      rcases way with isSource | ⟨node, depth, known, linked⟩
      · exact Or.inr (Or.inl isSource)
      · exact Or.inr (Or.inr ⟨node, depth, List.mem_append_left _ known, linked⟩)

end Growth

section Descending

variable [DecidableEq α] {links : Nat → α → List α}

theorem descend_known {room depth : Nat} {met : List (α × Nat)} {node : α} (known : node ∈ nodes met) :
    descend links room depth met node = met := by
  cases room <;> rw [descend, if_pos known]

theorem descend_zero {depth : Nat} {met : List (α × Nat)} {node : α} (new : node ∉ nodes met) :
    descend links 0 depth met node = met ++ [(node, depth)] := by
  rw [descend, if_neg new]

theorem descend_succ {room depth : Nat} {met : List (α × Nat)} {node : α} (new : node ∉ nodes met) :
    descend links (room + 1) depth met node =
      (links depth node).foldl (descend links room (depth + 1)) (met ++ [(node, depth)]) := by
  rw [descend, if_neg new]

theorem grows_fold {room depth deepest : Nat} {node : α} {source : α × Nat}
    (each : ∀ met child, Grows links (child, depth + 1) deepest met (descend links room (depth + 1) met child))
    {children : List α} (linked : ∀ child ∈ children, child ∈ links depth node) {met : List (α × Nat)}
    (here : (node, depth) ∈ met) :
    Grows links source deepest met (children.foldl (descend links room (depth + 1)) met) := by
  induction children generalizing met with
  | nil => exact Grows.same
  | cons child rest ih =>
    rw [List.foldl_cons]
    have below : Grows links source deepest met (descend links room (depth + 1) met child) :=
      (each met child).above (linked child List.mem_cons_self) here
    exact below.trans (ih (fun other mem => linked other (List.mem_cons_of_mem _ mem)) (below.subset here))

theorem descend_grows (room depth : Nat) (met : List (α × Nat)) (node : α) :
    Grows links (node, depth) (depth + room) met (descend links room depth met node) := by
  induction room generalizing depth met node with
  | zero =>
    by_cases known : node ∈ nodes met
    · rw [descend_known known]
      exact Grows.same
    · rw [descend_zero known]
      exact Grows.meets (node, depth) Grows.same known (Nat.le_refl _) (Or.inl rfl)
  | succ room ih =>
    by_cases known : node ∈ nodes met
    · rw [descend_known known]
      exact Grows.same
    · rw [descend_succ known]
      have first : Grows links (node, depth) (depth + (room + 1)) met (met ++ [(node, depth)]) :=
        Grows.meets (node, depth) Grows.same known (Nat.le_add_right _ _) (Or.inl rfl)
      have room_eq : depth + (room + 1) = depth + 1 + room := by omega
      rw [room_eq] at first ⊢
      exact first.trans (grows_fold (fun met child => ih (depth + 1) met child) (fun _ mem => mem)
        (List.mem_append_right _ (List.mem_singleton_self _)))

theorem descend_le {room depth : Nat} {met : List (α × Nat)} {node : α}
    (start : ∀ node at_, (node, at_) ∈ met → at_ ≤ depth + room) :
    ∀ other at_, (other, at_) ∈ descend links room depth met node → at_ ≤ depth + room :=
  (descend_grows room depth met node).all (fun at_ _ => at_ ≤ depth + room) (Nat.le_add_right _ _)
    (fun _ _ _ above _ _ => above) start

theorem descend_subset {room depth : Nat} {met : List (α × Nat)} {node : α} : met ⊆ descend links room depth met node :=
  (descend_grows room depth met node).subset

theorem fold_subset {room depth : Nat} {children : List α} {met : List (α × Nat)} :
    met ⊆ children.foldl (descend links room depth) met := by
  induction children generalizing met with
  | nil => exact fun _ mem => mem
  | cons child rest ih => exact fun _ mem => ih (descend_subset mem)

theorem mem_descend (room depth : Nat) (met : List (α × Nat)) (node : α) : node ∈ nodes (descend links room depth met node) := by
  by_cases known : node ∈ nodes met
  · rw [descend_known known]
    exact known
  · have here : node ∈ nodes (met ++ [(node, depth)]) := by
      rw [nodes_append]
      exact List.mem_append_right _ (List.mem_singleton_self _)
    cases room with
    | zero =>
      rw [descend_zero known]
      exact here
    | succ room =>
      rw [descend_succ known]
      exact nodes_subset fold_subset here

theorem mem_fold {room depth : Nat} {children : List α} {met : List (α × Nat)} {child : α} (mem : child ∈ children) :
    child ∈ nodes (children.foldl (descend links room depth) met) := by
  induction children generalizing met with
  | nil => cases mem
  | cons first rest ih =>
    rw [List.foldl_cons]
    rcases List.mem_cons.1 mem with same | later
    · rw [same]
      exact nodes_subset fold_subset (mem_descend room depth met first)
    · exact ih later

/-- The links of all that is newly met above the bound are followed. -/
def Followed (links : Nat → α → List α) (deepest : Nat) (met out : List (α × Nat)) : Prop :=
  ∀ node depth, (node, depth) ∈ out → (node, depth) ∈ met ∨ deepest ≤ depth ∨ links depth node ⊆ nodes out

omit [DecidableEq α] in
theorem Followed.trans {deepest : Nat} {met out later : List (α × Nat)} (first : Followed links deepest met out)
    (second : Followed links deepest out later) (subset : out ⊆ later) : Followed links deepest met later := by
  intro node depth mem
  rcases second node depth mem with old | bound | followed
  · rcases first node depth old with before | bound | followed
    · exact Or.inl before
    · exact Or.inr (Or.inl bound)
    · exact Or.inr (Or.inr (fun _ linked => nodes_subset subset (followed linked)))
  · exact Or.inr (Or.inl bound)
  · exact Or.inr (Or.inr followed)

theorem descend_followed (room depth : Nat) (met : List (α × Nat)) (node : α) :
    Followed links (depth + room) met (descend links room depth met node) := by
  induction room generalizing depth met node with
  | zero =>
    by_cases known : node ∈ nodes met
    · rw [descend_known known]
      exact fun _ _ mem => Or.inl mem
    · rw [descend_zero known]
      intro other at_ mem
      rcases List.mem_append.1 mem with old | new
      · exact Or.inl old
      · rw [List.mem_singleton, Prod.mk.injEq] at new
        exact Or.inr (Or.inl (by omega))
  | succ room ih =>
    by_cases known : node ∈ nodes met
    · rw [descend_known known]
      exact fun _ _ mem => Or.inl mem
    · rw [descend_succ known]
      have fold (children : List α) (begun : List (α × Nat)) :
          Followed links (depth + (room + 1)) begun (children.foldl (descend links room (depth + 1)) begun) := by
        induction children generalizing begun with
        | nil => exact fun _ _ mem => Or.inl mem
        | cons child rest inner =>
          rw [List.foldl_cons]
          have room_eq : depth + (room + 1) = depth + 1 + room := by omega
          have first := ih (depth + 1) begun child
          rw [← room_eq] at first
          exact first.trans (inner _) fold_subset
      intro other at_ mem
      rcases fold (links depth node) (met ++ [(node, depth)]) other at_ mem with old | rest
      · rcases List.mem_append.1 old with before | new
        · exact Or.inl before
        · rw [List.mem_singleton, Prod.mk.injEq] at new
          right
          right
          rw [new.1, new.2]
          exact fun child linked => mem_fold linked
      · exact Or.inr rest

theorem fold_begins {room depth : Nat} {children : List α} {met : List (α × Nat)} :
    met <+: children.foldl (descend links room depth) met := by
  induction children generalizing met with
  | nil => exact List.prefix_refl met
  | cons child rest ih => exact (descend_grows room depth met child).begins.trans ih

theorem entry_mem {room depth : Nat} {met : List (α × Nat)} {node : α} (new : node ∉ nodes met) :
    (node, depth) ∈ descend links room depth met node := by
  have here : (node, depth) ∈ met ++ [(node, depth)] := List.mem_append_right _ (List.mem_singleton_self _)
  cases room with
  | zero =>
    rw [descend_zero new]
    exact here
  | succ room =>
    rw [descend_succ new]
    exact fold_subset here

/-- Nothing is newly met above where the walk goes down. -/
theorem descend_below (room depth : Nat) (met : List (α × Nat)) (node : α) :
    ∀ other at_, (other, at_) ∈ descend links room depth met node → (other, at_) ∈ met ∨ depth ≤ at_ := by
  have entered {met : List (α × Nat)} {node other : α} {depth at_ : Nat} (mem : (other, at_) ∈ met ++ [(node, depth)]) :
      (other, at_) ∈ met ∨ depth ≤ at_ := by
    rcases List.mem_append.1 mem with old | new
    · exact Or.inl old
    · rw [List.mem_singleton, Prod.mk.injEq] at new
      exact Or.inr (Nat.le_of_eq new.2.symm)
  induction room generalizing depth met node with
  | zero =>
    by_cases known : node ∈ nodes met
    · rw [descend_known known]
      exact fun _ _ mem => Or.inl mem
    · rw [descend_zero known]
      exact fun _ _ mem => entered mem
  | succ room ih =>
    by_cases known : node ∈ nodes met
    · rw [descend_known known]
      exact fun _ _ mem => Or.inl mem
    · rw [descend_succ known]
      intro other at_
      generalize links depth node = children
      have begun : ∀ mem : (other, at_) ∈ met ++ [(node, depth)], (other, at_) ∈ met ∨ depth ≤ at_ := entered
      generalize met ++ [(node, depth)] = out at begun ⊢
      induction children generalizing out with
      | nil => exact begun
      | cons child rest inner =>
        apply inner
        intro mem
        rcases ih (depth + 1) out child other at_ mem with old | below
        · exact begun old
        · exact Or.inr (by omega)

theorem fold_below {room depth : Nat} {children : List α} {met : List (α × Nat)} {other : α} {at_ : Nat}
    (mem : (other, at_) ∈ children.foldl (descend links room depth) met) : (other, at_) ∈ met ∨ depth ≤ at_ := by
  induction children generalizing met with
  | nil => exact Or.inl mem
  | cons child rest ih =>
    rcases ih mem with old | below
    · exact descend_below room depth met child other at_ old
    · exact Or.inr below

end Descending

section Placed

variable [DecidableEq α] (links : α → List α) (placed : Nat → α → Prop) [∀ depth, DecidablePred (placed depth)]

/-- The links of a node that lead to a place one step further. -/
def onward (depth : Nat) (node : α) : List α := (links node).filter (fun child => decide (placed (depth + 1) child))

/-- Each node is met at the depth of its place. -/
def InPlace (met : List (α × Nat)) : Prop := ∀ node depth, (node, depth) ∈ met → placed depth node

/-- The target of a link that does not lead onward comes no later than the node it leaves. -/
def Ordered (bound : Nat) (met : List (α × Nat)) : Prop :=
  ∀ node depth, (node, depth) ∈ met → depth < bound → ∀ child ∈ links node, ¬placed (depth + 1) child →
    (nodes met).idxOf child ≤ (nodes met).idxOf node

variable {links placed}

omit [DecidableEq α] [∀ depth, DecidablePred (placed depth)] in
theorem InPlace.subset {met out : List (α × Nat)} (inPlace : InPlace placed out) (subset : met ⊆ out) : InPlace placed met :=
  fun node depth mem => inPlace node depth (subset mem)

/-- Where every node is met in its place, only links that lead onward are ever followed. -/
theorem onward_of_inPlace {room depth : Nat} {met : List (α × Nat)} {node : α}
    (inPlace : InPlace placed (descend (fun _ => links) room depth met node)) :
    descend (onward links placed) room depth met node = descend (fun _ => links) room depth met node := by
  induction room generalizing depth met node with
  | zero => rfl
  | succ room ih =>
    by_cases known : node ∈ nodes met
    · rw [descend_known known, descend_known known]
    · have kept : onward links placed depth node = (links node).filter (fun child => decide (placed (depth + 1) child)) := rfl
      rw [descend_succ known] at inPlace ⊢
      rw [descend_succ known, kept]
      generalize met ++ [(node, depth)] = begun at inPlace ⊢
      generalize links node = children at inPlace ⊢
      induction children generalizing begun with
      | nil => rfl
      | cons child rest inner =>
        by_cases leads : placed (depth + 1) child
        · have keeps : (child :: rest).filter (fun child => decide (placed (depth + 1) child)) =
              child :: rest.filter (fun child => decide (placed (depth + 1) child)) :=
            List.filter_cons_of_pos (decide_eq_true leads)
          rw [keeps, List.foldl_cons, List.foldl_cons, ih (inPlace.subset fold_subset)]
          exact inner _ inPlace
        · have drops : (child :: rest).filter (fun child => decide (placed (depth + 1) child)) =
              rest.filter (fun child => decide (placed (depth + 1) child)) := List.filter_cons_of_neg (by simpa using leads)
          rw [List.foldl_cons] at inPlace ⊢
          have met_ : child ∈ nodes begun := by
            by_contra new
            exact leads (inPlace child (depth + 1) (fold_subset (entry_mem new)))
          rw [descend_known met_] at inPlace ⊢
          rw [drops]
          exact inner _ inPlace

theorem idxOf_begins {pre all : List (α × Nat)} (isPrefix : pre <+: all) {node : α} (mem : node ∈ nodes pre) :
    (nodes all).idxOf node = (nodes pre).idxOf node := by
  obtain ⟨rest, same⟩ := isPrefix
  rw [← same, nodes_append, List.idxOf_append_of_mem mem]

/-- Of a node that has just been met, nothing comes later. -/
theorem idxOf_begun {met all : List (α × Nat)} {node other : α} {depth : Nat} (new : node ∉ nodes met)
    (isPrefix : met ++ [(node, depth)] <+: all) :
    other ∈ nodes (met ++ [(node, depth)]) ↔ (nodes all).idxOf other ≤ (nodes all).idxOf node := by
  have here : node ∈ nodes (met ++ [(node, depth)]) := by
    rw [nodes_append]
    exact List.mem_append_right _ (List.mem_singleton_self _)
  have place : (nodes (met ++ [(node, depth)])).idxOf node = (nodes met).length := by
    rw [nodes_append, List.idxOf_append_of_notMem new]
    simp
  have size : (nodes (met ++ [(node, depth)])).length = (nodes met).length + 1 := by
    rw [nodes_append, List.length_append]
    rfl
  rw [idxOf_begins isPrefix here, place]
  constructor
  · intro mem
    rw [idxOf_begins isPrefix mem]
    have inside := List.idxOf_lt_length_of_mem mem
    omega
  · intro early
    by_contra absent
    obtain ⟨rest, same⟩ := isPrefix
    rw [← same, nodes_append, List.idxOf_append_of_notMem absent] at early
    omega

omit [∀ depth, DecidablePred (placed depth)] in
/-- What is met in place is met in order. -/
theorem ordered_of_inPlace {bound : Nat} (unique : ∀ one other node, placed one node → placed other node → one = other)
    (near : ∀ depth node child, depth < bound → placed depth node → child ∈ links node → ∃ place ≤ depth + 1, placed place child)
    {room depth : Nat} {met : List (α × Nat)} {node : α}
    (inPlace : InPlace placed (descend (fun _ => links) room depth met node)) (deep : bound = depth + room) :
    ∀ other at_, (other, at_) ∈ descend (fun _ => links) room depth met node → (other, at_) ∉ met → at_ < bound →
      ∀ child ∈ links other, ¬placed (at_ + 1) child →
        (nodes (descend (fun _ => links) room depth met node)).idxOf child ≤
          (nodes (descend (fun _ => links) room depth met node)).idxOf other := by
  induction room generalizing depth met node with
  | zero =>
    intro other at_ mem fresh above
    rcases descend_below 0 depth met node other at_ mem with old | below
    · exact absurd old fresh
    · omega
  | succ room ih =>
    by_cases known : node ∈ nodes met
    · rw [descend_known known]
      exact fun _ _ mem fresh => absurd mem fresh
    · rw [descend_succ known] at inPlace ⊢
      intro other at_ mem fresh above child linked elsewhere
      by_cases self : (other, at_) = (node, depth)
      · rw [Prod.mk.injEq] at self
        rw [self.1] at linked
        rw [self.2] at elsewhere
        rw [self.1, ← idxOf_begun known fold_begins]
        -- a target that is met on the way down from here is met one step further
        by_contra late
        obtain ⟨place, met_⟩ := mem_nodes.1 (@mem_fold α _ (fun _ => links) room (depth + 1) (links node)
          (met ++ [(node, depth)]) child linked)
        rcases fold_below met_ with old | below
        · exact late (mem_nodes.2 ⟨place, old⟩)
        · have own : placed depth node := inPlace node depth (fold_subset (List.mem_append_right _ (List.mem_singleton_self _)))
          obtain ⟨nearer, bound_, there⟩ := near depth node child (by omega) own linked
          have same := unique _ _ _ there (inPlace child place met_)
          have exact_ : nearer = depth + 1 := by omega
          exact elsewhere (exact_ ▸ there)
      · have started : (other, at_) ∉ met ++ [(node, depth)] := by
          intro old
          rcases List.mem_append.1 old with before | new
          · exact fresh before
          · exact self (List.mem_singleton.1 new)
        generalize met ++ [(node, depth)] = begun at mem started inPlace ⊢
        generalize links node = children at mem inPlace ⊢
        induction children generalizing begun with
        | nil => exact absurd mem started
        | cons first rest inner =>
          rw [List.foldl_cons] at mem inPlace ⊢
          by_cases within : (other, at_) ∈ descend (fun _ => links) room (depth + 1) begun first
          · have order := ih (inPlace.subset fold_subset) (by omega) other at_ within started above child linked elsewhere
            have otherIn : other ∈ nodes (descend (fun _ => links) room (depth + 1) begun first) := mem_nodes.2 ⟨at_, within⟩
            have inside := List.idxOf_lt_length_of_mem otherIn
            have childIn : child ∈ nodes (descend (fun _ => links) room (depth + 1) begun first) :=
              List.idxOf_lt_length_iff.1 (by omega)
            rw [idxOf_begins fold_begins otherIn, idxOf_begins fold_begins childIn]
            exact order
          · exact inner _ within mem inPlace

/-- Where the links that lead onward meet the targets of the others first, they are all that is ever followed. -/
theorem same_of_ordered {all : List (α × Nat)} {bound : Nat} (ordered : Ordered links placed bound all) {room depth : Nat}
    {met : List (α × Nat)} {node : α} (deep : depth + room ≤ bound)
    (isPrefix : descend (onward links placed) room depth met node <+: all) :
    descend (fun _ => links) room depth met node = descend (onward links placed) room depth met node := by
  induction room generalizing depth met node with
  | zero => rfl
  | succ room ih =>
    by_cases known : node ∈ nodes met
    · rw [descend_known known, descend_known known]
    · have kept : onward links placed depth node = (links node).filter (fun child => decide (placed (depth + 1) child)) := rfl
      rw [descend_succ known, kept] at isPrefix
      rw [descend_succ known, descend_succ known, kept]
      have begins : met ++ [(node, depth)] <+: all := fold_begins.trans isPrefix
      have early : ∀ child ∈ links node, ¬placed (depth + 1) child → child ∈ nodes (met ++ [(node, depth)]) := by
        intro child linked elsewhere
        rw [idxOf_begun known begins]
        exact ordered node depth (begins.subset (List.mem_append_right _ (List.mem_singleton_self _))) (by omega) child linked
          elsewhere
      generalize met ++ [(node, depth)] = begun at isPrefix early ⊢
      generalize links node = children at isPrefix early ⊢
      induction children generalizing begun with
      | nil => rfl
      | cons child rest inner =>
        have later : ∀ other ∈ rest, ¬placed (depth + 1) other → other ∈ nodes begun :=
          fun other mem => early other (List.mem_cons_of_mem _ mem)
        by_cases leads : placed (depth + 1) child
        · have keeps : (child :: rest).filter (fun child => decide (placed (depth + 1) child)) =
              child :: rest.filter (fun child => decide (placed (depth + 1) child)) :=
            List.filter_cons_of_pos (decide_eq_true leads)
          rw [keeps, List.foldl_cons] at isPrefix ⊢
          rw [List.foldl_cons, ih (by omega) (fold_begins.trans isPrefix)]
          exact inner _ isPrefix (fun other mem elsewhere => nodes_subset descend_subset (later other mem elsewhere))
        · have drops : (child :: rest).filter (fun child => decide (placed (depth + 1) child)) =
              rest.filter (fun child => decide (placed (depth + 1) child)) := List.filter_cons_of_neg (by simpa using leads)
          rw [drops] at isPrefix ⊢
          rw [List.foldl_cons, descend_known (early child List.mem_cons_self leads)]
          exact inner _ isPrefix later

/-- A walk from a place meets every node in its place exactly if the links that lead onward, followed alone, meet the
targets of the others no later than the nodes these leave. -/
theorem inPlace_iff_ordered {room : Nat} {root : α} (start : placed 0 root)
    (unique : ∀ one other node, placed one node → placed other node → one = other)
    (near : ∀ depth node child, depth < room → placed depth node → child ∈ links node →
      ∃ place ≤ depth + 1, placed place child) :
    InPlace placed (descend (fun _ => links) room 0 [] root) ↔
      Ordered links placed room (descend (onward links placed) room 0 [] root) := by
  constructor
  · intro inPlace
    rw [onward_of_inPlace inPlace]
    intro node depth mem above
    exact ordered_of_inPlace unique near inPlace (by omega) node depth mem List.not_mem_nil above
  · intro ordered
    rw [same_of_ordered ordered (by omega) (List.prefix_refl _)]
    intro node depth mem
    refine (descend_grows room 0 [] root).all placed start ?_ (fun _ _ mem => absurd mem List.not_mem_nil) node depth mem
    intro depth node child _ _ linked
    exact of_decide_eq_true (List.mem_filter.1 linked).2

end Placed

end ToolArtifactRegistry.Library.Descent
