import Mathlib.Data.List.Pairwise
import Mathlib.Logic.Function.Basic

/-! Names given to items. An item may bring its name; an item with a key has the name its key is known
under, or a new one under which the key is known from then on; any other item has a new name. -/
namespace ToolArtifactRegistry.Library.Naming

/-- What tells an item from others. -/
inductive Identity (Key Name : Type) where
  | given (name : Name)
  | keyed (key : Key)
  | new

variable {Item Key Name : Type}

/-- Two items are taken for one. -/
def Identity.Same (known : Key → Option Name) : Identity Key Name → Identity Key Name → Prop
  | .given name, .given other => name = other
  | .given name, .keyed k => known k = some name
  | .keyed k, .given name => known k = some name
  | .keyed k, .keyed other => k = other
  | _, _ => False

instance [DecidableEq Key] [DecidableEq Name] (known : Key → Option Name) (first second : Identity Key Name) :
    Decidable (first.Same known second) :=
  match first, second with
  | .given name, .given other => inferInstanceAs (Decidable (name = other))
  | .given name, .keyed k => inferInstanceAs (Decidable (known k = some name))
  | .keyed k, .given name => inferInstanceAs (Decidable (known k = some name))
  | .keyed k, .keyed other => inferInstanceAs (Decidable (k = other))
  | .given _, .new => isFalse id
  | .keyed _, .new => isFalse id
  | .new, .given _ => isFalse id
  | .new, .keyed _ => isFalse id
  | .new, .new => isFalse id

/-- A name an item brings may happen to be the new name of another. -/
def Identity.Comparable : Identity Key Name → Identity Key Name → Prop
  | .given _, .new => False
  | .new, .given _ => False
  | _, _ => True

/-- The name an item has already. -/
def Identity.Stands (known : Key → Option Name) : Identity Key Name → Name → Prop
  | .given name, n => name = n
  | .keyed k, n => known k = some n
  | .new, _ => False

theorem Identity.Stands.mono {before after : Key → Option Name} {is : Identity Key Name} {n : Name}
    (stands : is.Stands before n) (kept : ∀ k n, before k = some n → after k = some n) : is.Stands after n := by
  cases is with
  | given name => exact stands
  | keyed k => exact kept k n stands
  | new => exact stands.elim

variable {identity : Item → Identity Key Name}

/-- What some namings did: what was known before and after, the names they made up, and what they named. -/
structure Names (identity : Item → Identity Key Name) (fresh : Name → Prop) (before after : Key → Option Name)
    (named : List (Item × Name)) : Prop where
  kept : ∀ {k n}, before k = some n → after k = some n
  minted : ∀ {k n}, after k = some n → before k = some n ∨ fresh n
  apart : ∀ {k other n}, after k = some n → after other = some n → k = other ∨ (before k = some n ∧ before other = some n)
  given : ∀ {item n m}, (item, n) ∈ named → identity item = .given m → n = m
  keyed : ∀ {item n k}, (item, n) ∈ named → identity item = .keyed k → after k = some n
  new : ∀ {item n}, (item, n) ∈ named → identity item = .new → fresh n ∧ ∀ k, after k ≠ some n
  distinct : named.Pairwise (fun x y => identity x.1 = .new → identity y.1 = .new → x.2 ≠ y.2)

namespace Names

variable {fresh later : Name → Prop} {before middle after : Key → Option Name} {named more : List (Item × Name)}

theorem refl (fresh : Name → Prop) (known : Key → Option Name) : Names identity fresh known known [] where
  kept held := held
  minted held := Or.inl held
  apart left right := Or.inr ⟨left, right⟩
  given mem _ := by simp at mem
  keyed mem _ := by simp at mem
  new mem _ := by simp at mem
  distinct := List.Pairwise.nil

theorem forget (names : Names identity fresh before after named) : Names identity fresh before after [] where
  kept := names.kept
  minted := names.minted
  apart := names.apart
  given mem _ := by simp at mem
  keyed mem _ := by simp at mem
  new mem _ := by simp at mem
  distinct := List.Pairwise.nil

theorem mono (names : Names identity fresh before after named) (weaker : ∀ n, fresh n → later n) :
    Names identity later before after named where
  kept := names.kept
  minted held := (names.minted held).imp_right (weaker _)
  apart := names.apart
  given := names.given
  keyed := names.keyed
  new mem made := ⟨weaker _ (names.new mem made).1, (names.new mem made).2⟩
  distinct := names.distinct

/-- One item is named as its identity says; what is known stays. -/
theorem single {item : Item} {n : Name} (given : ∀ m, identity item = .given m → n = m)
    (keyed : ∀ k, identity item = .keyed k → before k = some n)
    (new : identity item = .new → fresh n ∧ ∀ k, before k ≠ some n) :
    Names identity fresh before before [(item, n)] where
  kept held := held
  minted held := Or.inl held
  apart left right := Or.inr ⟨left, right⟩
  given mem same := by
    rw [List.mem_singleton, Prod.mk.injEq] at mem
    obtain ⟨rfl, rfl⟩ := mem
    exact given _ same
  keyed mem same := by
    rw [List.mem_singleton, Prod.mk.injEq] at mem
    obtain ⟨rfl, rfl⟩ := mem
    exact keyed _ same
  new mem same := by
    rw [List.mem_singleton, Prod.mk.injEq] at mem
    obtain ⟨rfl, rfl⟩ := mem
    exact new same
  distinct := List.pairwise_singleton _ _

theorem bring {item : Item} {n : Name} (is : identity item = .given n) : Names identity fresh before before [(item, n)] := by
  refine single ?_ ?_ ?_
  · intro m same
    rw [is] at same
    cases same
    rfl
  · intro k same
    rw [is] at same
    cases same
  · intro same
    rw [is] at same
    cases same

theorem make {item : Item} {n : Name} (is : identity item = .new) (made : fresh n) (unused : ∀ k, before k ≠ some n) :
    Names identity fresh before before [(item, n)] := by
  refine single ?_ ?_ ?_
  · intro m same
    rw [is] at same
    cases same
  · intro k same
    rw [is] at same
    cases same
  · exact fun _ => ⟨made, unused⟩

/-- A key that was not known, under a name that is new. -/
theorem learn [DecidableEq Key] {k : Key} {n : Name} (absent : before k = none) (made : fresh n)
    (unused : ∀ other, before other ≠ some n) : Names identity fresh before (Function.update before k (some n)) [] where
  kept {other m} held := by
    have different : other ≠ k := by
      intro same
      rw [same, absent] at held
      cases held
    rw [Function.update_of_ne different]
    exact held
  minted {other m} held := by
    by_cases same : other = k
    · rw [same, Function.update_self, Option.some.injEq] at held
      exact Or.inr (held ▸ made)
    · rw [Function.update_of_ne same] at held
      exact Or.inl held
  apart {left right m} first second := by
    by_cases here : left = k
    · by_cases there : right = k
      · exact Or.inl (here.trans there.symm)
      · rw [here, Function.update_self, Option.some.injEq] at first
        rw [Function.update_of_ne there, ← first] at second
        exact absurd second (unused right)
    · by_cases there : right = k
      · rw [there, Function.update_self, Option.some.injEq] at second
        rw [Function.update_of_ne here, ← second] at first
        exact absurd first (unused left)
      · rw [Function.update_of_ne here] at first
        rw [Function.update_of_ne there] at second
        exact Or.inr ⟨first, second⟩
  given mem _ := by simp at mem
  keyed mem _ := by simp at mem
  new mem _ := by simp at mem
  distinct := List.Pairwise.nil

/-- An item whose key is known by then. -/
theorem assign {item : Item} {k : Key} {n : Name} (names : Names identity fresh before after [])
    (is : identity item = .keyed k) (there : after k = some n) : Names identity fresh before after [(item, n)] where
  kept := names.kept
  minted := names.minted
  apart := names.apart
  given mem same := by
    rw [List.mem_singleton, Prod.mk.injEq] at mem
    rw [mem.1, is] at same
    cases same
  keyed mem same := by
    rw [List.mem_singleton, Prod.mk.injEq] at mem
    rw [mem.1, is] at same
    cases same
    rw [mem.2]
    exact there
  new mem same := by
    rw [List.mem_singleton, Prod.mk.injEq] at mem
    rw [mem.1, is] at same
    cases same
  distinct := List.pairwise_singleton _ _

theorem recalled {item : Item} {k : Key} {n : Name} (is : identity item = .keyed k) (there : before k = some n) :
    Names identity fresh before before [(item, n)] := (refl fresh before).assign is there

/-- Namings one after the other, when the later ones make up names of their own. -/
theorem trans (first : Names identity fresh before middle named) (second : Names identity later middle after more)
    (disjoint : ∀ n, fresh n → ¬later n) :
    Names identity (fun n => fresh n ∨ later n) before after (named ++ more) where
  kept held := second.kept (first.kept held)
  minted held := by
    rcases second.minted held with between | made
    · exact (first.minted between).imp_right Or.inl
    · exact Or.inr (Or.inr made)
  apart left right := by
    rcases second.apart left right with same | ⟨left, right⟩
    · exact Or.inl same
    · exact first.apart left right
  given mem same := by
    rcases List.mem_append.1 mem with early | late
    · exact first.given early same
    · exact second.given late same
  keyed mem same := by
    rcases List.mem_append.1 mem with early | late
    · exact second.kept (first.keyed early same)
    · exact second.keyed late same
  new mem same := by
    rcases List.mem_append.1 mem with early | late
    · obtain ⟨made, unknown⟩ := first.new early same
      refine ⟨Or.inl made, fun k held => ?_⟩
      rcases second.minted held with between | clash
      · exact unknown k between
      · exact disjoint _ made clash
    · exact ⟨Or.inr (second.new late same).1, (second.new late same).2⟩
  distinct := by
    refine List.pairwise_append.2 ⟨first.distinct, second.distinct, ?_⟩
    intro x early y late left right same
    refine disjoint _ (first.new early left).1 ?_
    rw [same]
    exact (second.new late right).1

/-- An item that has a new name shares it with no other item that does not bring its own. -/
theorem new_ne (names : Names identity fresh before after named) {x y : Item × Name} (left : x ∈ named) (right : y ∈ named)
    (different : x.1 ≠ y.1) (made : identity x.1 = .new) (comparable : (identity x.1).Comparable (identity y.1)) :
    x.2 ≠ y.2 := by
  cases second : identity y.1 with
  | given m =>
    rw [made, second] at comparable
    exact comparable.elim
  | keyed k =>
    intro same
    exact (names.new left made).2 k (same ▸ names.keyed right second)
  | new =>
    have symmetric : Std.Symm (fun x y : Item × Name => identity x.1 = .new → identity y.1 = .new → x.2 ≠ y.2) :=
      ⟨fun _ _ apart second first clash => apart first second clash.symm⟩
    have apart : x ≠ y := fun clash => different (by rw [clash])
    exact names.distinct.forall left right apart made second

/-- From nothing known, two items have one name exactly when they are taken for one. -/
theorem eq_iff (names : Names identity fresh (fun _ => none) after named) {x y : Item × Name} (left : x ∈ named)
    (right : y ∈ named) (different : x.1 ≠ y.1) (comparable : (identity x.1).Comparable (identity y.1)) :
    x.2 = y.2 ↔ Identity.Same after (identity x.1) (identity y.1) := by
  cases first : identity x.1 with
  | new =>
    have apart := names.new_ne left right different first comparable
    cases identity y.1 <;> exact iff_of_false apart id
  | given m =>
    cases second : identity y.1 with
    | new =>
      rw [first, second] at comparable
      exact comparable.elim
    | given n =>
      rw [names.given left first, names.given right second]
      exact Iff.rfl
    | keyed k =>
      rw [names.given left first]
      show m = y.2 ↔ after k = some m
      rw [names.keyed right second, Option.some.injEq, eq_comm]
  | keyed k =>
    cases second : identity y.1 with
    | new =>
      have symmetric : (identity y.1).Comparable (identity x.1) := by
        rw [first, second]
        trivial
      have apart := names.new_ne right left (Ne.symm different) second symmetric
      exact iff_of_false (Ne.symm apart) id
    | given m =>
      rw [names.given right second]
      show x.2 = m ↔ after k = some m
      rw [names.keyed left first, Option.some.injEq]
    | keyed other =>
      show x.2 = y.2 ↔ k = other
      have here := names.keyed left first
      have there := names.keyed right second
      constructor
      · intro same
        rw [same] at here
        rcases names.apart here there with one | ⟨impossible, _⟩
        · exact one
        · cases impossible
      · intro same
        rw [same, there, Option.some.injEq] at here
        exact here.symm

end Names

end ToolArtifactRegistry.Library.Naming
