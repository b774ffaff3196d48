import Mathlib.Data.List.Sort
import Mathlib.Order.Defs.LinearOrder

/-! Keyset paging: a page holds the greatest keys below a cursor, and its last key is the next cursor while more
are left. Following the cursors goes through all the keys, downwards. -/
namespace ToolArtifactRegistry.Library.Keyset

/-- The pages met when each is asked for with the cursor of the one before, up to one that has none. -/
inductive Follows {Page Key : Type} (page : Option Key → Page) (next : Page → Option Key) : Option Key → List Page → Prop
  | last {cursor : Option Key} (done : next (page cursor) = none) : Follows page next cursor [page cursor]
  | more {cursor : Option Key} {key : Key} {rest : List Page} (further : next (page cursor) = some key)
      (follows : Follows page next (some key) rest) : Follows page next cursor (page cursor :: rest)

/-- A cursor that is met on the way from the first page. -/
inductive Met {Page Key : Type} (page : Option Key → Page) (next : Page → Option Key) : Option Key → Prop
  | start : Met page next none
  | onward {cursor : Option Key} {key : Key} (met : Met page next cursor) (further : next (page cursor) = some key) :
      Met page next (some key)

theorem Follows.unique {Page Key : Type} {page : Option Key → Page} {next : Page → Option Key} {cursor : Option Key}
    {pages others : List Page} (one : Follows page next cursor pages) (other : Follows page next cursor others) :
    pages = others := by
  induction one generalizing others with
  | last done =>
    cases other with
    | last => rfl
    | more further _ =>
      rw [done] at further
      cases further
  | more further _ ih =>
    cases other with
    | last done =>
      rw [done] at further
      cases further
    | more again follows =>
      rw [further] at again
      cases again
      rw [ih follows]

variable {Key : Type} [LinearOrder Key]

def descending (keys : List Key) : List Key := keys.mergeSort (fun one other => decide (other ≤ one))

def below (keys : List Key) (cursor : Option Key) : List Key := keys.filter (fun key => cursor.all (fun bound => decide (key < bound)))

/-- The keys from the cursor on, greatest first. -/
def left (keys : List Key) (cursor : Option Key) : List Key := descending (below keys cursor)

structure Leaf (Key : Type) where
  items : List Key
  next : Option Key

def leaf (keys : List Key) (limit : Nat) (cursor : Option Key) : Leaf Key :=
  ⟨(left keys cursor).take limit,
    if limit < (left keys cursor).length then ((left keys cursor).take limit).getLast? else none⟩

theorem mem_descending {keys : List Key} {key : Key} : key ∈ descending keys ↔ key ∈ keys :=
  List.mem_mergeSort

theorem descending_sorted {keys : List Key} (nodup : keys.Nodup) : (descending keys).Pairwise (· > ·) := by
  have ordered : (descending keys).Pairwise (fun one other => decide (other ≤ one) = true) := by
    apply List.pairwise_mergeSort
    · intro one two three first second
      simp only [decide_eq_true_eq] at first second ⊢
      exact le_trans second first
    · intro one other
      simp only [Bool.or_eq_true, decide_eq_true_eq]
      exact le_total other one
  have distinct : (descending keys).Nodup := (List.mergeSort_perm keys _).nodup_iff.2 nodup
  apply (ordered.and distinct).imp
  rintro one other ⟨le, ne⟩
  exact lt_of_le_of_ne (of_decide_eq_true le) (Ne.symm ne)

/-- A list that goes strictly downwards is fixed by its members. -/
theorem sorted_unique {one other : List Key} (first : one.Pairwise (· > ·)) (second : other.Pairwise (· > ·))
    (same : ∀ key, key ∈ one ↔ key ∈ other) : one = other := by
  have perm : one.Perm other :=
    (List.perm_ext_iff_of_nodup (first.imp fun gt => ne_of_gt gt) (second.imp fun gt => ne_of_gt gt)).2 same
  exact perm.eq_of_pairwise (fun _ _ _ _ gt lt => absurd gt (lt_asymm lt)) first second

theorem mem_below {keys : List Key} {cursor : Option Key} {key : Key} :
    key ∈ below keys cursor ↔ key ∈ keys ∧ ∀ bound, cursor = some bound → key < bound := by
  cases cursor <;> simp [below]

theorem mem_left {keys : List Key} {cursor : Option Key} {key : Key} :
    key ∈ left keys cursor ↔ key ∈ keys ∧ ∀ bound, cursor = some bound → key < bound := by
  rw [left, mem_descending, mem_below]

section Following

variable {keys : List Key} {limit : Nat} {cursor : Option Key}

theorem left_sorted (nodup : keys.Nodup) : (left keys cursor).Pairwise (· > ·) := descending_sorted (nodup.filter _)

/-- Behind the last key of a page stands what the page left out. -/
theorem left_next {key : Key} (nodup : keys.Nodup) (further : (leaf keys limit cursor).next = some key) :
    left keys (some key) = (left keys cursor).drop limit := by
  have sorted : (left keys cursor).Pairwise (· > ·) := left_sorted nodup
  have parted : ((left keys cursor).take limit ++ (left keys cursor).drop limit).Pairwise (· > ·) := by
    rw [List.take_append_drop]
    exact sorted
  have last : ((left keys cursor).take limit).getLast? = some key := by
    unfold leaf at further
    dsimp only at further
    split at further
    · exact further
    · cases further
  obtain ⟨before, shape⟩ := List.getLast?_eq_some_iff.1 last
  have least : ∀ other ∈ (left keys cursor).take limit, key ≤ other := by
    intro other mem
    have ordered := (List.pairwise_append.1 parted).1
    rw [shape] at mem ordered
    rcases List.mem_append.1 mem with earlier | here
    · exact le_of_lt ((List.pairwise_append.1 ordered).2.2 other earlier key List.mem_cons_self)
    · rw [List.mem_singleton.1 here]
  have there : key ∈ (left keys cursor).take limit := by
    rw [shape]
    exact List.mem_append_right _ List.mem_cons_self
  apply sorted_unique (left_sorted nodup) (List.pairwise_append.1 parted).2.1
  intro other
  rw [mem_left]
  constructor
  · rintro ⟨mem, lower⟩
    have under := lower key rfl
    have kept : other ∈ left keys cursor :=
      mem_left.2 ⟨mem, fun bound same => lt_trans under ((mem_left.1 (List.mem_of_mem_take there)).2 bound same)⟩
    rw [← List.take_append_drop limit (left keys cursor), List.mem_append] at kept
    rcases kept with taken | dropped
    · exact absurd under (not_lt_of_ge (least other taken))
    · exact dropped
  · intro mem
    refine ⟨(mem_left.1 (List.mem_of_mem_drop mem)).1, fun bound same => ?_⟩
    cases same
    exact (List.pairwise_append.1 parted).2.2 key there other mem

theorem next_some {key : Key} (further : (leaf keys limit cursor).next = some key) :
    key ∈ keys ∧ limit < (left keys cursor).length := by
  unfold leaf at further
  dsimp only at further
  split at further
  · rename_i longer
    have taken : key ∈ (left keys cursor).take limit := List.mem_of_getLast? further
    exact ⟨(mem_left.1 (List.mem_of_mem_take taken)).1, longer⟩
  · cases further

/-- Behind a cursor that is passed on there is a smaller key. -/
theorem next_above {key : Key} (nodup : keys.Nodup) (further : (leaf keys limit cursor).next = some key) :
    ∃ other ∈ keys, other < key := by
  have rest := left_next nodup further
  have longer := (next_some further).2
  have some_ : 0 < (left keys (some key)).length := by
    rw [rest, List.length_drop]
    omega
  obtain ⟨other, mem⟩ := List.exists_mem_of_length_pos some_
  exact ⟨other, (mem_left.1 mem).1, (mem_left.1 mem).2 key rfl⟩

theorem next_none_iff (pos : 0 < limit) : (leaf keys limit cursor).next = none ↔ (left keys cursor).length ≤ limit := by
  unfold leaf
  dsimp only
  split
  · rename_i longer
    constructor
    · intro none_
      have empty := List.getLast?_eq_none_iff.1 none_
      have count : ((left keys cursor).take limit).length = limit := List.length_take_of_le (Nat.le_of_lt longer)
      rw [empty, List.length_nil] at count
      omega
    · intro short
      omega
  · rename_i short
    exact ⟨fun _ => Nat.le_of_not_lt short, fun _ => rfl⟩

/-- Following the cursors ends, and goes through what was left. -/
theorem follows_left (nodup : keys.Nodup) (pos : 0 < limit) (cursor : Option Key) :
    ∃ leaves, Follows (leaf keys limit) Leaf.next cursor leaves ∧ leaves.flatMap Leaf.items = left keys cursor ∧
      leaves.length ≤ (left keys cursor).length + 1 := by
  -- each page that has a successor takes at least one key
  induction count : (left keys cursor).length using Nat.strong_induction_on generalizing cursor with
  | _ count ih =>
    subst count
    cases further : (leaf keys limit cursor).next with
    | none =>
      refine ⟨_, .last further, ?_, by simp⟩
      rw [List.flatMap_singleton]
      exact List.take_of_length_le ((next_none_iff pos).1 further)
    | some key =>
      have rest := left_next nodup further
      have longer : limit < (left keys cursor).length := by
        by_contra short
        rw [(next_none_iff pos).2 (Nat.le_of_not_lt short)] at further
        cases further
      have shorter : (left keys (some key)).length = (left keys cursor).length - limit := by
        rw [rest, List.length_drop]
      obtain ⟨leaves, follows, through, few⟩ := ih _ (by omega) (some key) rfl
      refine ⟨_, .more further follows, ?_, ?_⟩
      · rw [List.flatMap_cons, through, rest]
        exact List.take_append_drop limit _
      · rw [List.length_cons]
        omega

end Following

end ToolArtifactRegistry.Library.Keyset
