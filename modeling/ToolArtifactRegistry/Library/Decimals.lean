import Mathlib.Data.Nat.Init
import ToolArtifactRegistry.Library.Text

/-! Whole numbers written in decimal and read again. -/
namespace ToolArtifactRegistry.Library.Text

theorem digits?_eq {digits : List Char} (all : ∀ c ∈ digits, c.isDigit = true) (total : Nat) :
    digits? total digits = some (Nat.ofDigitChars 10 digits total) := by
  induction digits generalizing total with
  | nil => rfl
  | cons c rest ih =>
    have digit := all c List.mem_cons_self
    rw [digits?, if_pos digit, ih (fun d mem => all d (List.mem_cons_of_mem _ mem)), Nat.ofDigitChars_cons, Nat.mul_comm]

theorem digits?_toDigits (n : Nat) : digits? 0 (Nat.toDigits 10 n) = some n := by
  rw [digits?_eq (fun c mem => Nat.isDigit_of_mem_toDigits (by decide) (by decide) mem), Nat.ofDigitChars_ten_toDigits]

/-- The digits of a number do not begin with a sign. -/
theorem toDigits_head {n : Nat} : ∃ c rest, Nat.toDigits 10 n = c :: rest ∧ c ≠ '-' ∧ c ≠ '+' := by
  cases digits : Nat.toDigits 10 n with
  | nil => exact absurd digits Nat.toDigits_ne_nil
  | cons c rest =>
    have digit : c.isDigit = true :=
      Nat.isDigit_of_mem_toDigits (by decide) (by decide) (digits ▸ List.mem_cons_self : c ∈ Nat.toDigits 10 n)
    refine ⟨c, rest, rfl, ?_, ?_⟩ <;>
    · rintro rfl
      revert digit
      decide

/-- A number of 64 bits reads back as it is printed. -/
theorem parseI64_toString {n : Int} (low : -9223372036854775808 ≤ n) (high : n ≤ 9223372036854775807) :
    parseI64 (toString n) = some n := by
  have kept : (some n).filter (fun n => decide (-9223372036854775808 ≤ n ∧ n ≤ 9223372036854775807)) = some n := by
    rw [Option.filter_some, if_pos (decide_eq_true ⟨low, high⟩)]
  by_cases sign : 0 ≤ n
  · have letters : (toString n).toList = Nat.toDigits 10 n.toNat := by
      rw [Int.toString_eq_repr, Int.repr_eq_if, if_pos sign, Nat.toList_repr]
    have value : (digits? 0 (Nat.toDigits 10 n.toNat)).map (fun m => (m : Int)) = some n := by
      rw [digits?_toDigits]
      exact congrArg some (Int.toNat_of_nonneg sign)
    obtain ⟨c, rest, digits, minus, plus⟩ := @toDigits_head n.toNat
    rw [parseI64, letters]
    rw [digits] at value ⊢
    split
    · rename_i shape
      exact absurd (List.cons.inj shape).1 minus
    · rename_i shape
      exact absurd (List.cons.inj shape).1 plus
    · rename_i shape
      rw [← shape]
      exact (congrArg _ value).trans kept
    · rename_i shape
      cases shape
  · have letters : (toString n).toList = '-' :: Nat.toDigits 10 (-n).toNat := by
      rw [Int.toString_eq_repr, Int.repr_eq_if, if_neg sign, String.toList_append, Nat.toList_repr]
      rfl
    obtain ⟨c, rest, digits, _, _⟩ := @toDigits_head (-n).toNat
    have value : (digits? 0 (c :: rest)).map (fun m => -(m : Int)) = some n := by
      have back : -((-n).toNat : Int) = n := by omega
      rw [← digits, digits?_toDigits]
      exact congrArg some back
    rw [parseI64, letters, digits]
    exact (congrArg _ value).trans kept

end ToolArtifactRegistry.Library.Text
