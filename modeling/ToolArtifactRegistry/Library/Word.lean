import Mathlib.Algebra.Group.Int.Defs
import Mathlib.Algebra.Group.Nat.Defs
import Mathlib.Data.Int.Order.Basic

/-! Signed numbers of 64 bits, with the operations that can fail told apart from those that cannot: a
checked operation gives nothing where it overflows, a saturating one stops at the ends. -/
namespace ToolArtifactRegistry.Library.Word

structure I64 where
  val : Int
  low : -9223372036854775808 ≤ val
  high : val ≤ 9223372036854775807
  deriving DecidableEq

namespace I64

theorem ext_val {left right : I64} (same : left.val = right.val) : left = right := by
  cases left
  cases right
  simpa using same

/-- A number that has 64 bits to itself. -/
def ofNat (n : Nat) (small : n ≤ 9223372036854775807) : I64 := ⟨n, by omega, by omega⟩

/-- The number, unless it overflows. -/
def checked (n : Int) : Option I64 :=
  if h : -9223372036854775808 ≤ n ∧ n ≤ 9223372036854775807 then some ⟨n, h.1, h.2⟩ else none

/-- The number, or the end it lies beyond. -/
def saturated (n : Int) : I64 :=
  ⟨max (-9223372036854775808) (min n 9223372036854775807), by omega, by omega⟩

/-- The number as its low 64 bits read. -/
def wrapped (n : Int) : I64 :=
  ⟨(n + 9223372036854775808) % 18446744073709551616 - 9223372036854775808, by omega, by omega⟩

def max_ (left right : I64) : I64 := if left.val ≤ right.val then right else left

def min_ (left right : I64) : I64 := if left.val ≤ right.val then left else right

def checkedSub (left right : I64) : Option I64 := checked (left.val - right.val)

def saturatingMul (left right : I64) : I64 := saturated (left.val * right.val)

/-- The low 32 bits. -/
def asU32 (word : I64) : Nat := (word.val % 4294967296).toNat

/-- A shift by the width or more overflows; the bits that leave are lost. -/
def checkedShl (word : I64) (count : Nat) : Option I64 :=
  if count < 64 then some (wrapped (word.val * 2 ^ count)) else none

@[simp] theorem val_ofNat (n : Nat) (small : n ≤ 9223372036854775807) : (ofNat n small).val = n := rfl

@[simp] theorem val_max (left right : I64) : (left.max_ right).val = max left.val right.val := by
  unfold max_
  split <;> omega

@[simp] theorem val_min (left right : I64) : (left.min_ right).val = min left.val right.val := by
  unfold min_
  split <;> omega

theorem val_saturatingMul {left right : I64} (low : -9223372036854775808 ≤ left.val * right.val)
    (high : left.val * right.val ≤ 9223372036854775807) : (left.saturatingMul right).val = left.val * right.val := by
  show max _ (min (left.val * right.val) _) = _
  omega

theorem checked_some {n : Int} (low : -9223372036854775808 ≤ n) (high : n ≤ 9223372036854775807) :
    checked n = some ⟨n, low, high⟩ := dif_pos ⟨low, high⟩

theorem asU32_of_small {word : I64} (low : 0 ≤ word.val) (high : word.val < 4294967296) :
    word.asU32 = word.val.toNat := by
  show (word.val % 4294967296).toNat = _
  omega

@[simp] theorem val_mk (n : Int) (low : -9223372036854775808 ≤ n) (high : n ≤ 9223372036854775807) :
    (I64.mk n low high).val = n := rfl

theorem val_wrapped {n : Int} (low : -9223372036854775808 ≤ n) (high : n ≤ 9223372036854775807) :
    (wrapped n).val = n := by
  show (n + 9223372036854775808) % 18446744073709551616 - 9223372036854775808 = n
  omega

/-- One shifted is a power of two. -/
theorem one_checkedShl {count : Nat} (small : 2 ^ count ≤ 4611686018427387904) :
    (ofNat 1 (by decide)).checkedShl count = some (ofNat (2 ^ count) (by omega)) := by
  have short : count < 64 := by
    by_contra long
    have steep : 2 ^ 64 ≤ 2 ^ count := Nat.pow_le_pow_right (by decide) (by omega)
    omega
  have power : (ofNat 1 (by decide)).val * 2 ^ count = ((2 ^ count : Nat) : Int) := by
    rw [val_ofNat]
    push_cast
    omega
  have positive : (0 : Int) ≤ ((2 ^ count : Nat) : Int) := Int.natCast_nonneg _
  have bounded : ((2 ^ count : Nat) : Int) ≤ 4611686018427387904 := Int.ofNat_le.mpr small
  unfold checkedShl
  rw [if_pos short]
  apply congrArg
  apply ext_val
  calc (wrapped ((ofNat 1 (by decide)).val * 2 ^ count)).val
      = (wrapped ((2 ^ count : Nat) : Int)).val := by rw [power]
    _ = (ofNat (2 ^ count) (by omega)).val := val_wrapped (by omega) (by omega)

end I64

end ToolArtifactRegistry.Library.Word
