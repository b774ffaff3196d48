import Mathlib.Algebra.GroupWithZero.Nat
import Mathlib.Data.Finset.Card
import Mathlib.Data.Finset.Union

/-! Finite sets of statements whose labels mean nothing outside the set. Two of them are the same up to labels when one
is the other with its labels renamed apart. How often a label is in use then tells two sets apart that were put together
from parts: it matters whether the parts shared labels when they were relabelled. -/
namespace ToolArtifactRegistry.Library.Relabelling

/-- Statements with labels in them. -/
class Labelled (Q : Type) where
  labels : Q → Finset String
  rename : (String → String) → Q → Q
  labels_rename : ∀ f q, labels (rename f q) = (labels q).image f
  rename_congr : ∀ f g q, (∀ label ∈ labels q, f label = g label) → rename f q = rename g q
  rename_rename : ∀ f g q, rename g (rename f q) = rename (g ∘ f) q
  rename_id : ∀ q, rename id q = q

variable {Q : Type} [DecidableEq Q] [Labelled Q]

open Labelled

/-- The labels in use. -/
def labelsIn (set : Finset Q) : Finset String := set.biUnion labels

def withLabels (f : String → String) (set : Finset Q) : Finset Q := set.image (rename f)

/-- The same up to labels. -/
def Isomorphic (left right : Finset Q) : Prop := ∃ f, Set.InjOn f (labelsIn left) ∧ right = withLabels f left

/-- A part is renamed apart, to labels that are not in use. -/
structure Anew (used : Finset String) (part : Finset Q) (f : String → String) : Prop where
  injOn : Set.InjOn f (labelsIn part)
  new : ∀ label ∈ labelsIn part, f label ∉ used

section Renaming

variable {left right set part : Finset Q} {f g : String → String} {used : Finset String}

omit [DecidableEq Q] in
theorem labels_subset {q : Q} (mem : q ∈ set) : labels q ⊆ labelsIn set := Finset.subset_biUnion_of_mem labels mem

theorem labelsIn_union : labelsIn (left ∪ right) = labelsIn left ∪ labelsIn right := Finset.union_biUnion

theorem labelsIn_withLabels : labelsIn (withLabels f set) = (labelsIn set).image f := by
  unfold labelsIn withLabels
  rw [Finset.image_biUnion, Finset.biUnion_image]
  exact Finset.biUnion_congr rfl (fun q _ => labels_rename f q)

theorem withLabels_union : withLabels f (left ∪ right) = withLabels f left ∪ withLabels f right := Finset.image_union _ _

theorem withLabels_congr (same : ∀ label ∈ labelsIn set, f label = g label) : withLabels f set = withLabels g set :=
  Finset.image_congr (fun q mem => rename_congr f g q (fun label inside => same label (labels_subset mem inside)))

theorem withLabels_twice : withLabels g (withLabels f set) = withLabels (g ∘ f) set := by
  unfold withLabels
  rw [Finset.image_image]
  exact Finset.image_congr (fun q _ => rename_rename f g q)

theorem withLabels_self (same : ∀ label ∈ labelsIn set, f label = label) : withLabels f set = set := by
  rw [@withLabels_congr Q _ _ set f id same]
  unfold withLabels
  exact (Finset.image_congr (fun q _ => rename_id q)).trans Finset.image_id

theorem Isomorphic.refl (set : Finset Q) : Isomorphic set set :=
  ⟨id, Function.injective_id.injOn, (withLabels_self (fun _ _ => rfl)).symm⟩

/-- Sets that are the same up to labels use as many of them. -/
theorem card_labels (iso : Isomorphic left right) : (labelsIn right).card = (labelsIn left).card := by
  obtain ⟨f, injOn, same⟩ := iso
  rw [same, labelsIn_withLabels]
  exact Finset.card_image_of_injOn injOn

theorem Anew.disjoint (anew : Anew used part f) : Disjoint used (labelsIn (withLabels f part)) := by
  rw [labelsIn_withLabels, Finset.disjoint_right]
  intro label mem
  obtain ⟨before, inside, same⟩ := Finset.mem_image.1 mem
  exact same ▸ anew.new before inside

/-- A copy that is renamed once more is still the same up to labels. -/
theorem Anew.copy (anew : Anew used (withLabels f set) g) (injOn : Set.InjOn f (labelsIn set)) :
    Isomorphic set (withLabels g (withLabels f set)) := by
  refine ⟨g ∘ f, anew.injOn.comp injOn ?_, withLabels_twice⟩
  intro label mem
  rw [labelsIn_withLabels, Finset.coe_image]
  exact Set.mem_image_of_mem f mem

/-- A part that is renamed apart brings as many labels as it has. -/
theorem card_anew (anew : Anew (labelsIn set) part f) :
    (labelsIn (set ∪ withLabels f part)).card = (labelsIn set).card + (labelsIn part).card := by
  rw [labelsIn_union, Finset.card_union_of_disjoint anew.disjoint, labelsIn_withLabels,
    Finset.card_image_of_injOn anew.injOn]

/-- However a part is renamed apart, the whole is the same up to labels. -/
theorem isomorphic_anew (one : Anew (labelsIn set) part f) (other : Anew (labelsIn set) part g) :
    Isomorphic (set ∪ withLabels f part) (set ∪ withLabels g part) := by
  classical
  -- what the first renaming gave is taken to what the second gives
  obtain ⟨back, undoes⟩ : ∃ back : String → String, ∀ label ∈ labelsIn part, back (f label) = label :=
    ⟨Function.invFunOn f (labelsIn part), fun _ mem => one.injOn.leftInvOn_invFunOn mem⟩
  refine ⟨fun label => if label ∈ labelsIn set then label else g (back label), ?_, ?_⟩
  · rw [labelsIn_union, labelsIn_withLabels]
    intro first inFirst second inSecond same
    dsimp only at same
    rcases Finset.mem_union.1 inFirst with firstOld | firstNew <;>
      rcases Finset.mem_union.1 inSecond with secondOld | secondNew
    · rwa [if_pos firstOld, if_pos secondOld] at same
    · obtain ⟨before, inside, made⟩ := Finset.mem_image.1 secondNew
      have fresh : second ∉ labelsIn set := made ▸ one.new before inside
      rw [if_pos firstOld, if_neg fresh, ← made, undoes before inside] at same
      exact absurd (same ▸ firstOld) (other.new before inside)
    · obtain ⟨before, inside, made⟩ := Finset.mem_image.1 firstNew
      have fresh : first ∉ labelsIn set := made ▸ one.new before inside
      rw [if_neg fresh, if_pos secondOld, ← made, undoes before inside] at same
      exact absurd (same.symm ▸ secondOld) (other.new before inside)
    · obtain ⟨before, inside, made⟩ := Finset.mem_image.1 firstNew
      obtain ⟨after, within, gives⟩ := Finset.mem_image.1 secondNew
      have fresh : first ∉ labelsIn set := made ▸ one.new before inside
      have clear : second ∉ labelsIn set := gives ▸ one.new after within
      rw [if_neg fresh, if_neg clear, ← made, ← gives, undoes before inside, undoes after within] at same
      rw [← made, ← gives, other.injOn inside within same]
  · rw [withLabels_union, withLabels_self (fun label mem => if_pos mem), withLabels_twice]
    congr 1
    apply withLabels_congr
    intro label mem
    show g label = if f label ∈ labelsIn set then f label else g (back (f label))
    rw [if_neg (one.new label mem), undoes label mem]

omit [DecidableEq Q] in
theorem anew_id (apart : Disjoint (labelsIn set) (labelsIn part)) : Anew (labelsIn set) part id :=
  ⟨Function.injective_id.injOn, fun _ mem => Finset.disjoint_right.1 apart mem⟩

/-- A part that is put in as it is, and one that is renamed apart, give the same just when the part shared no label. -/
theorem isomorphic_union_iff (anew : Anew (labelsIn set) part f) :
    Isomorphic (set ∪ part) (set ∪ withLabels f part) ↔ Disjoint (labelsIn set) (labelsIn part) := by
  constructor
  · intro iso
    have count := card_labels iso
    rw [card_anew anew, labelsIn_union] at count
    exact Finset.card_union_eq_card_add_card.1 count.symm
  · intro apart
    have same := isomorphic_anew (anew_id apart) anew
    rwa [@withLabels_self Q _ _ part id (fun _ _ => rfl)] at same

end Renaming

section Parts

variable {set whole : Finset Q} {parts : List (Finset Q)} {f : String → String}

/-- Parts put in one after the other, each renamed apart from what is there by then. -/
inductive PutIn : Finset Q → List (Finset Q) → Finset Q → Prop
  | none (set : Finset Q) : PutIn set [] set
  | part {set part last : Finset Q} {rest : List (Finset Q)} (f : String → String) (anew : Anew (labelsIn set) part f)
      (then_ : PutIn (set ∪ withLabels f part) rest last) : PutIn set (part :: rest) last

/-- All the parts together. -/
def unionOf (parts : List (Finset Q)) : Finset Q := parts.foldr (· ∪ ·) ∅

omit [Labelled Q] in
@[simp] theorem unionOf_nil : unionOf ([] : List (Finset Q)) = ∅ := rfl

omit [Labelled Q] in
@[simp] theorem unionOf_cons (part : Finset Q) (rest : List (Finset Q)) :
    unionOf (part :: rest) = part ∪ unionOf rest := rfl

omit [DecidableEq Q] in
theorem labelsIn_empty : labelsIn (∅ : Finset Q) = ∅ := rfl

theorem mem_labels_unionOf {label : String} :
    label ∈ labelsIn (unionOf parts) ↔ ∃ part ∈ parts, label ∈ labelsIn part := by
  induction parts with
  | nil => simp [labelsIn_empty]
  | cons part rest ih => simp [labelsIn_union, ih]

/-- As many labels are in use then as each part has. -/
theorem PutIn.card_labels {last : Finset Q} (puts : PutIn set parts last) :
    (labelsIn last).card = (labelsIn set).card + (parts.map (fun part => (labelsIn part).card)).sum := by
  induction puts with
  | none => rw [List.map_nil, List.sum_nil, Nat.add_zero]
  | part f anew _ ih => rw [ih, card_anew anew, List.map_cons, List.sum_cons, Nat.add_assoc]

/-- Parts that share no label might as well have been relabelled together. -/
theorem PutIn.at_once {last : Finset Q} (puts : PutIn set parts last)
    (apart : parts.Pairwise (fun one other => Disjoint (labelsIn one) (labelsIn other))) :
    ∃ f, Anew (labelsIn set) (unionOf parts) f ∧ last = set ∪ withLabels f (unionOf parts) := by
  classical
  induction puts with
  | none set =>
    refine ⟨id, ⟨Function.injective_id.injOn, fun _ absent => ?_⟩, by simp [withLabels]⟩
    simp [labelsIn_empty] at absent
  | @part set part last rest f anew _ ih =>
    rw [List.pairwise_cons] at apart
    obtain ⟨g, later, same⟩ := ih apart.2
    have elsewhere : ∀ label ∈ labelsIn (unionOf rest), label ∉ labelsIn part := by
      intro label mem inside
      obtain ⟨other, listed, within⟩ := mem_labels_unionOf.1 mem
      exact Finset.disjoint_left.1 (apart.1 other listed) inside within
    have new : ∀ label ∈ labelsIn (unionOf rest), g label ∉ labelsIn set ∧ g label ∉ (labelsIn part).image f := by
      intro label mem
      have fresh := later.new label mem
      rw [labelsIn_union, labelsIn_withLabels, Finset.mem_union, not_or] at fresh
      exact fresh
    refine ⟨fun label => if label ∈ labelsIn part then f label else g label, ⟨?_, ?_⟩, ?_⟩
    · rw [unionOf_cons, labelsIn_union]
      intro first inFirst second inSecond alike
      dsimp only at alike
      by_cases one : first ∈ labelsIn part <;> by_cases two : second ∈ labelsIn part
      · rw [if_pos one, if_pos two] at alike
        exact anew.injOn one two alike
      · rw [if_pos one, if_neg two] at alike
        have there := (Finset.mem_union.1 inSecond).resolve_left two
        exact absurd (alike ▸ Finset.mem_image_of_mem f one) (new second there).2
      · rw [if_neg one, if_pos two] at alike
        have there := (Finset.mem_union.1 inFirst).resolve_left one
        exact absurd (alike.symm ▸ Finset.mem_image_of_mem f two) (new first there).2
      · rw [if_neg one, if_neg two] at alike
        exact later.injOn ((Finset.mem_union.1 inFirst).resolve_left one)
          ((Finset.mem_union.1 inSecond).resolve_left two) alike
    · rw [unionOf_cons, labelsIn_union]
      intro label mem
      by_cases inside : label ∈ labelsIn part
      · rw [if_pos inside]
        exact anew.new label inside
      · rw [if_neg inside]
        exact (new label ((Finset.mem_union.1 mem).resolve_left inside)).1
    · rw [same, unionOf_cons, withLabels_union, Finset.union_assoc]
      congr 2
      · exact withLabels_congr (fun label mem => (if_pos mem).symm)
      · exact withLabels_congr (fun label mem => (if_neg (elsewhere label mem)).symm)

/-- A union has as many elements as its parts just when no two of the parts share one. -/
theorem card_unionOf {sets : List (Finset Q)} :
    (labelsIn (unionOf sets)).card = (sets.map (fun set => (labelsIn set).card)).sum ↔
      sets.Pairwise (fun one other => Disjoint (labelsIn one) (labelsIn other)) := by
  have most : ∀ sets : List (Finset Q),
      (labelsIn (unionOf sets)).card ≤ (sets.map (fun set => (labelsIn set).card)).sum := by
    intro sets
    induction sets with
    | nil => simp [labelsIn_empty]
    | cons set rest ih =>
      rw [unionOf_cons, labelsIn_union, List.map_cons, List.sum_cons]
      exact (Finset.card_union_le _ _).trans (Nat.add_le_add_left ih _)
  induction sets with
  | nil => simp [labelsIn_empty]
  | cons set rest ih =>
    have split : Disjoint (labelsIn set) (labelsIn (unionOf rest)) ↔
        ∀ other ∈ rest, Disjoint (labelsIn set) (labelsIn other) := by
      simp only [Finset.disjoint_left, mem_labels_unionOf, not_exists, not_and]
      exact ⟨fun all other mem _ inside there => all inside other mem there,
        fun each _ inside other mem => each other mem inside⟩
    have bound := most rest
    have join := Finset.card_union_le (labelsIn set) (labelsIn (unionOf rest))
    rw [List.pairwise_cons, ← split, unionOf_cons, labelsIn_union, List.map_cons, List.sum_cons]
    constructor
    · intro count
      have tail : (labelsIn (unionOf rest)).card = (rest.map (fun set => (labelsIn set).card)).sum := by omega
      rw [← tail] at count
      exact ⟨Finset.card_union_eq_card_add_card.1 count, ih.1 tail⟩
    · intro both
      rw [Finset.card_union_of_disjoint both.1, ih.2 both.2]

/-- Parts that are renamed one by one, and the whole renamed at once, give the same just when no two parts share a
label. -/
theorem isomorphic_parts_iff {last : Finset Q} (anew : Anew (labelsIn set) (unionOf parts) f)
    (puts : PutIn set parts last) : Isomorphic (set ∪ withLabels f (unionOf parts)) last ↔
      parts.Pairwise (fun one other => Disjoint (labelsIn one) (labelsIn other)) := by
  constructor
  · intro iso
    have count := Relabelling.card_labels iso
    rw [puts.card_labels, card_anew anew] at count
    exact card_unionOf.1 (Nat.add_left_cancel count.symm)
  · intro apart
    obtain ⟨g, other, same⟩ := puts.at_once apart
    rw [same]
    exact isomorphic_anew anew other

end Parts

end ToolArtifactRegistry.Library.Relabelling
