import Mathlib.Data.List.Perm.Basic

/-! Answers that are taken from the first of some rows that has one: the rows may come in any order, and
the answer is the same in all of them just when no two rows disagree. -/
namespace ToolArtifactRegistry.Library.Orders

variable {Row Answer : Type}

/-- An order in which rows are returned. -/
structure Order (Row : Type) where
  arrange : List Row → List Row
  perm : ∀ rows, (arrange rows).Perm rows

theorem findSome_filter (rows : List Row) (keep : Row → Bool) (ask : Row → Option Answer) :
    (rows.filter keep).findSome? ask = rows.findSome? (fun row => if keep row then ask row else none) := by
  induction rows with
  | nil => rfl
  | cons row rest ih =>
    by_cases kept : keep row = true
    · rw [List.filter_cons_of_pos kept, List.findSome?_cons, List.findSome?_cons, if_pos kept, ih]
    · rw [List.filter_cons_of_neg kept, List.findSome?_cons, if_neg kept, ih]

namespace Order

def asStored : Order Row := ⟨id, fun _ => List.Perm.refl _⟩

/-- The rows that are hit come before the others. -/
def leading (hit : Row → Bool) : Order Row where
  arrange rows := rows.filter hit ++ rows.filter (fun row => !hit row)
  perm rows := List.filter_append_perm hit rows

variable {order : Order Row} {rows : List Row} {ask : Row → Option Answer}

theorem mem_arrange {row : Row} : row ∈ order.arrange rows ↔ row ∈ rows := (order.perm rows).mem_iff

theorem first_none_iff : (order.arrange rows).findSome? ask = none ↔ ∀ row ∈ rows, ask row = none := by
  rw [List.findSome?_eq_none_iff]
  simp only [mem_arrange]

theorem first_some {answer : Answer} (found : (order.arrange rows).findSome? ask = some answer) :
    ∃ row ∈ rows, ask row = some answer := by
  obtain ⟨row, mem, answered⟩ := List.exists_of_findSome?_eq_some found
  exact ⟨row, mem_arrange.1 mem, answered⟩

/-- Any answer a row has is the first one in some order. -/
theorem first_leading [DecidableEq Row] {row : Row} {answer : Answer} (mem : row ∈ rows) (answers : ask row = some answer) :
    ((leading (fun other => decide (other = row))).arrange rows).findSome? ask = some answer := by
  have ahead : (rows.filter (fun other => decide (other = row))).findSome? ask = some answer := by
    cases found : (rows.filter (fun other => decide (other = row))).findSome? ask with
    | none =>
      have missed := List.findSome?_eq_none_iff.1 found row (List.mem_filter.2 ⟨mem, decide_eq_true rfl⟩)
      rw [answers] at missed
      cases missed
    | some other =>
      obtain ⟨same, kept, answered⟩ := List.exists_of_findSome?_eq_some found
      rw [of_decide_eq_true (List.mem_filter.1 kept).2, answers] at answered
      exact answered.symm
  change (_ ++ _ : List Row).findSome? ask = _
  rw [List.findSome?_append, ahead]
  rfl

/-- Where all the answers agree, each order gives that answer. -/
theorem first_eq {row : Row} {answer : Answer} (mem : row ∈ rows) (answers : ask row = some answer)
    (agree : ∀ other ∈ rows, ∀ value, ask other = some value → value = answer) :
    (order.arrange rows).findSome? ask = some answer := by
  cases found : (order.arrange rows).findSome? ask with
  | none =>
    rw [first_none_iff.1 found row mem] at answers
    cases answers
  | some value =>
    obtain ⟨other, held, answered⟩ := first_some found
    rw [agree other held value answered]

end Order

section Greatest

variable (atMost : Row → Row → Bool)

/-- A row takes over where it exceeds the best so far. -/
def overtake (best row : Row) : Row := if atMost row best then best else row

/-- The first of the greatest rows. -/
def greatest : List Row → Option Row
  | [] => none
  | first :: rest => some (rest.foldl (overtake atMost) first)

variable {atMost}

theorem overtaken_mem (first : Row) (rest : List Row) : rest.foldl (overtake atMost) first ∈ first :: rest := by
  induction rest generalizing first with
  | nil => exact List.mem_cons_self
  | cons row rest ih =>
    rw [List.foldl_cons]
    rcases List.mem_cons.1 (ih (overtake atMost first row)) with same | later
    · rw [same, overtake]
      split
      · exact List.mem_cons_self
      · exact List.mem_cons_of_mem _ List.mem_cons_self
    · exact List.mem_cons_of_mem _ (List.mem_cons_of_mem _ later)

theorem overtaken_first {first : Row} {rest : List Row} (unbeaten : ∀ row ∈ rest, atMost row first = true) :
    rest.foldl (overtake atMost) first = first := by
  induction rest with
  | nil => rfl
  | cons row rest ih =>
    have stays : overtake atMost first row = first := by rw [overtake, if_pos (unbeaten row List.mem_cons_self)]
    rw [List.foldl_cons, stays]
    exact ih (fun other mem => unbeaten other (List.mem_cons_of_mem _ mem))

theorem greatest_none {rows : List Row} : greatest atMost rows = none ↔ rows = [] := by
  cases rows <;> simp [greatest]

variable (total : ∀ one other, atMost one other = true ∨ atMost other one = true)
  (trans : ∀ one two three, atMost one two = true → atMost two three = true → atMost one three = true)

include total trans in
theorem overtaken_bounds (first : Row) (rest : List Row) :
    ∀ row ∈ first :: rest, atMost row (rest.foldl (overtake atMost) first) = true := by
  induction rest generalizing first with
  | nil =>
    intro row mem
    rw [List.mem_singleton.1 mem]
    exact (total first first).elim id id
  | cons next rest ih =>
    have below : atMost first (overtake atMost first next) = true ∧ atMost next (overtake atMost first next) = true := by
      unfold overtake
      split
      · rename_i stays
        exact ⟨(total first first).elim id id, stays⟩
      · rename_i beaten
        exact ⟨(total next first).resolve_left beaten, (total next next).elim id id⟩
    have onward := ih (overtake atMost first next)
    have reached := onward _ List.mem_cons_self
    intro row mem
    rw [List.foldl_cons]
    rcases List.mem_cons.1 mem with rfl | later
    · exact trans _ _ _ below.1 reached
    · rcases List.mem_cons.1 later with rfl | last
      · exact trans _ _ _ below.2 reached
      · exact onward row (List.mem_cons_of_mem _ last)

include total trans in
/-- What holds of the greatest of the rows that are kept, in every order, holds of each of them that none exceeds. -/
theorem greatest_in_every_order [DecidableEq Row] {rows : List Row} {keep : Row → Bool} {holds : Row → Prop} :
    (∀ (order : Order Row) best, greatest atMost ((order.arrange rows).filter keep) = some best → holds best) ↔
      ∀ row ∈ rows.filter keep, (∀ other ∈ rows.filter keep, atMost other row = true) → holds row := by
  constructor
  · intro always row mem unbeaten
    obtain ⟨held, kept⟩ := List.mem_filter.1 mem
    apply always (Order.leading (fun other => decide (other = row))) row
    have front : row ∈ (rows.filter (fun other => decide (other = row))).filter keep :=
      List.mem_filter.2 ⟨List.mem_filter.2 ⟨held, decide_eq_true rfl⟩, kept⟩
    change greatest atMost ((rows.filter _ ++ rows.filter _).filter keep) = some row
    rw [List.filter_append]
    cases ahead : (rows.filter (fun other => decide (other = row))).filter keep with
    | nil =>
      rw [ahead] at front
      cases front
    | cons first rest =>
      have only {other : Row} (here : other ∈ first :: rest) : other = row ∧ other ∈ rows.filter keep := by
        rw [← ahead, List.mem_filter, List.mem_filter] at here
        exact ⟨of_decide_eq_true here.1.2, List.mem_filter.2 ⟨here.1.1, here.2⟩⟩
      rw [List.cons_append, greatest, (only List.mem_cons_self).1, overtaken_first]
      intro other inRest
      apply unbeaten
      rcases List.mem_append.1 inRest with here | there
      · exact (only (List.mem_cons_of_mem _ here)).2
      · obtain ⟨among, kept⟩ := List.mem_filter.1 there
        exact List.mem_filter.2 ⟨(List.mem_filter.1 among).1, kept⟩
  · intro each order best found
    have same {row : Row} : row ∈ (order.arrange rows).filter keep ↔ row ∈ rows.filter keep := by
      rw [List.mem_filter, List.mem_filter, Order.mem_arrange]
    cases arranged : (order.arrange rows).filter keep with
    | nil => simp [arranged, greatest] at found
    | cons first rest =>
      rw [arranged, greatest, Option.some.injEq] at found
      subst found
      have among {row : Row} : row ∈ first :: rest ↔ row ∈ rows.filter keep := by rw [← arranged, same]
      exact each _ (among.1 (overtaken_mem first rest))
        (fun other mem => overtaken_bounds total trans first rest other (among.2 mem))

end Greatest

end ToolArtifactRegistry.Library.Orders
