import Mathlib.Data.List.Nodup
import Mathlib.Data.List.Pairwise

/-! Tables as lists of rows, in the order they were inserted: rows changed where they stand, removed,
and added at the end, with what keeps a key unique and a serial number increasing. -/
namespace ToolArtifactRegistry.Library.Tables

variable {Row Key : Type}

def updateWhere (hit : Row → Bool) (change : Row → Row) (table : List Row) : List Row :=
  table.map (fun row => if hit row then change row else row)

def deleteWhere (hit : Row → Bool) (table : List Row) : List Row := table.filter (fun row => !hit row)

theorem mem_updateWhere {hit : Row → Bool} {change : Row → Row} {table : List Row} {row : Row} :
    row ∈ updateWhere hit change table ↔ ∃ old ∈ table, row = if hit old then change old else old := by
  simp only [updateWhere, List.mem_map, eq_comm]

theorem mem_deleteWhere {hit : Row → Bool} {table : List Row} {row : Row} :
    row ∈ deleteWhere hit table ↔ row ∈ table ∧ hit row = false := by
  simp [deleteWhere]

/-- What every row has, and a change gives, every row of the changed table has. -/
theorem forall_updateWhere {P : Row → Prop} {hit : Row → Bool} {change : Row → Row} {table : List Row}
    (each : ∀ row ∈ table, P row) (changed : ∀ row ∈ table, hit row = true → P row → P (change row)) :
    ∀ row ∈ updateWhere hit change table, P row := by
  intro row mem
  obtain ⟨old, held, rfl⟩ := mem_updateWhere.1 mem
  by_cases here : hit old = true
  · rw [if_pos here]
    exact changed old held here (each old held)
  · rw [if_neg here]
    exact each old held

theorem forall_deleteWhere {P : Row → Prop} {hit : Row → Bool} {table : List Row} (each : ∀ row ∈ table, P row) :
    ∀ row ∈ deleteWhere hit table, P row := fun row mem => each row (mem_deleteWhere.1 mem).1

theorem forall_append {P : Row → Prop} {table : List Row} {added : Row} (each : ∀ row ∈ table, P row) (new : P added) :
    ∀ row ∈ table ++ [added], P row := by
  intro row mem
  rcases List.mem_append.1 mem with old | last
  · exact each row old
  · rw [List.mem_singleton.1 last]
    exact new

/-- Rows numbered by their places have numbers of their own. -/
theorem pairwise_zipIdx (items : List Row) : items.zipIdx.Pairwise (fun left right => left.2 ≠ right.2) := by
  have places : (items.zipIdx.map Prod.snd).Nodup := by
    rw [List.zipIdx_map_snd]
    exact List.nodup_range'
  exact List.pairwise_map.1 places

section Keys

variable {key : Row → Key}

/-- A change that leaves a column alone leaves the whole column alone. -/
theorem map_updateWhere {hit : Row → Bool} {change : Row → Row} (table : List Row)
    (keeps : ∀ row, key (change row) = key row) : (updateWhere hit change table).map key = table.map key := by
  rw [updateWhere, List.map_map]
  apply List.map_congr_left
  intro row _
  by_cases here : hit row = true
  · simp [here, keeps]
  · simp [here]

/-- The row found by its key is the old one, changed. -/
theorem find_updateWhere [DecidableEq Key] {hit : Row → Bool} {change : Row → Row} (table : List Row)
    (keeps : ∀ row, key (change row) = key row) (wanted : Key) :
    (updateWhere hit change table).find? (fun row => decide (key row = wanted)) =
      (table.find? (fun row => decide (key row = wanted))).map (fun row => if hit row then change row else row) := by
  have same : ((fun row => decide (key row = wanted)) ∘ fun row => if hit row then change row else row) =
      fun row => decide (key row = wanted) := by
    funext row
    by_cases here : hit row = true
    · simp [here, keeps]
    · simp [here]
  rw [updateWhere, List.find?_map, same]

/-- No two rows have the same key. -/
def Keyed (key : Row → Key) (table : List Row) : Prop := (table.map key).Nodup

theorem Keyed.eq {table : List Row} (keyed : Keyed key table) {first second : Row} (left : first ∈ table)
    (right : second ∈ table) (same : key first = key second) : first = second :=
  List.inj_on_of_nodup_map keyed left right same

theorem Keyed.updateWhere {table : List Row} {hit : Row → Bool} {change : Row → Row} (keyed : Keyed key table)
    (keeps : ∀ row, key (change row) = key row) : Keyed key (updateWhere hit change table) := by
  rw [Keyed, map_updateWhere table keeps]
  exact keyed

theorem Keyed.deleteWhere {table : List Row} {hit : Row → Bool} (keyed : Keyed key table) :
    Keyed key (deleteWhere hit table) :=
  List.Nodup.sublist (List.filter_sublist.map key) keyed

theorem Keyed.append {table : List Row} {added : Row} (keyed : Keyed key table)
    (fresh : ∀ row ∈ table, key row ≠ key added) : Keyed key (table ++ [added]) := by
  rw [Keyed, List.map_append, List.nodup_append]
  refine ⟨keyed, by simp, ?_⟩
  intro left inTable right inAdded same
  obtain ⟨row, mem, rfl⟩ := List.mem_map.1 inTable
  rw [List.map_singleton, List.mem_singleton] at inAdded
  exact fresh row mem (same.trans inAdded)

end Keys

section Serials

variable {serial : Row → Int}

/-- Serial numbers grow in the order of insertion. -/
def Increasing (serial : Row → Int) (table : List Row) : Prop := (table.map serial).Pairwise (· < ·)

theorem Increasing.updateWhere {table : List Row} {hit : Row → Bool} {change : Row → Row}
    (increasing : Increasing serial table) (keeps : ∀ row, serial (change row) = serial row) :
    Increasing serial (updateWhere hit change table) := by
  rw [Increasing, map_updateWhere table keeps]
  exact increasing

theorem Increasing.deleteWhere {table : List Row} {hit : Row → Bool} (increasing : Increasing serial table) :
    Increasing serial (deleteWhere hit table) :=
  List.Pairwise.sublist (List.filter_sublist.map serial) increasing

theorem Increasing.append {table : List Row} {added : Row} (increasing : Increasing serial table)
    (last : ∀ row ∈ table, serial row < serial added) : Increasing serial (table ++ [added]) := by
  rw [Increasing, List.map_append, List.pairwise_append]
  refine ⟨increasing, by simp, ?_⟩
  intro left inTable right inAdded
  obtain ⟨row, mem, rfl⟩ := List.mem_map.1 inTable
  rw [List.map_singleton, List.mem_singleton] at inAdded
  rw [inAdded]
  exact last row mem

/-- A serial number names one row. -/
theorem Increasing.eq {table : List Row} (increasing : Increasing serial table) {first second : Row}
    (left : first ∈ table) (right : second ∈ table) (same : serial first = serial second) : first = second :=
  List.inj_on_of_nodup_map (List.Pairwise.imp Int.ne_of_lt increasing) left right same

/-- What follows the last row of a page is what the page left. -/
theorem Increasing.filter_after {table : List Row} (increasing : Increasing serial table) {size : Nat} {last : Row}
    (end_ : (table.take size).getLast? = some last) :
    table.filter (fun row => decide (serial last < serial row)) = table.drop size := by
  obtain ⟨front, page⟩ := List.getLast?_eq_some_iff.1 end_
  have halves : Increasing serial (front ++ [last] ++ table.drop size) := by
    rw [← page, List.take_append_drop]
    exact increasing
  rw [Increasing, List.map_append, List.pairwise_append, List.map_append, List.pairwise_append] at halves
  obtain ⟨⟨_, _, before⟩, _, after⟩ := halves
  have read : (front ++ [last]).filter (fun row => decide (serial last < serial row)) = [] := by
    rw [List.filter_eq_nil_iff]
    intro row mem
    rw [decide_eq_true_eq]
    rcases List.mem_append.1 mem with earlier | here
    · have below := before (serial row) (List.mem_map_of_mem earlier) (serial last) (by simp)
      omega
    · rw [List.mem_singleton.1 here]
      omega
  have left : (table.drop size).filter (fun row => decide (serial last < serial row)) = table.drop size := by
    rw [List.filter_eq_self]
    intro row mem
    exact decide_eq_true (after (serial last) (by simp) (serial row) (List.mem_map_of_mem mem))
  calc table.filter (fun row => decide (serial last < serial row))
      = (table.take size ++ table.drop size).filter (fun row => decide (serial last < serial row)) := by
        rw [List.take_append_drop]
    _ = table.drop size := by rw [List.filter_append, page, read, left, List.nil_append]

/-- A row is on the first page, or follows it with all of the page before it. -/
theorem Increasing.page {table : List Row} (increasing : Increasing serial table) {row : Row} (held : row ∈ table)
    (size : Nat) : row ∈ table.take size ∨
      (row ∈ table.drop size ∧ ((table.drop size).filter (fun other => decide (serial other ≤ serial row))).length + size ≤
        (table.filter (fun other => decide (serial other ≤ serial row))).length) := by
  rw [← List.take_append_drop size table, List.mem_append] at held
  rcases held with here | after
  · exact Or.inl here
  · refine Or.inr ⟨after, ?_⟩
    have halves : Increasing serial (table.take size ++ table.drop size) := by
      rw [List.take_append_drop]
      exact increasing
    rw [Increasing, List.map_append, List.pairwise_append] at halves
    obtain ⟨_, _, before⟩ := halves
    have whole : (table.take size).filter (fun other => decide (serial other ≤ serial row)) = table.take size := by
      rw [List.filter_eq_self]
      intro other mem
      have below := before (serial other) (List.mem_map_of_mem mem) (serial row) (List.mem_map_of_mem after)
      exact decide_eq_true (Int.le_of_lt below)
    have beyond : size < table.length := by
      have some_ := List.length_pos_of_mem after
      rw [List.length_drop] at some_
      omega
    have counted : (table.filter (fun other => decide (serial other ≤ serial row))).length =
        size + ((table.drop size).filter (fun other => decide (serial other ≤ serial row))).length := by
      calc (table.filter (fun other => decide (serial other ≤ serial row))).length
          = ((table.take size ++ table.drop size).filter (fun other => decide (serial other ≤ serial row))).length := by
            rw [List.take_append_drop]
        _ = _ := by rw [List.filter_append, whole, List.length_append, List.length_take_of_le (Nat.le_of_lt beyond)]
    omega

end Serials

end ToolArtifactRegistry.Library.Tables
