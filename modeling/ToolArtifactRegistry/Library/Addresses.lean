import Mathlib.Algebra.Group.Nat.Defs
import Mathlib.Data.List.Basic
import ToolArtifactRegistry.Library.Text

/-! Internet addresses and the texts that spell them: four decimal octets, or groups of hexadecimal digits
with at most one gap, the last two of which may be spelled as octets. -/
namespace ToolArtifactRegistry.Library.Addresses

inductive IpAddr where
  | v4 (bits : BitVec 32)
  | v6 (bits : BitVec 128)
  deriving DecidableEq

def IpAddr.isIpv4 : IpAddr → Bool
  | .v4 _ => true
  | .v6 _ => false

/-- The bits of an address of this kind. -/
def IpAddr.width : IpAddr → Nat
  | .v4 _ => 32
  | .v6 _ => 128

section Reading

def digit? (radix : Nat) (c : Char) : Option Nat :=
  let value : Option Nat :=
    if '0' ≤ c ∧ c ≤ '9' then some (c.toNat - '0'.toNat)
    else if 'a' ≤ c ∧ c ≤ 'z' then some (c.toNat - 'a'.toNat + 10)
    else if 'A' ≤ c ∧ c ≤ 'Z' then some (c.toNat - 'A'.toNat + 10)
    else none
  value.filter (fun n => decide (n < radix))

/-- What was read, and what follows it. -/
abbrev Reader (α : Type) := List Char → Option (α × List Char)

/-- As many digits as stand there, at least one and at most so many, of a number below a bound. -/
def readNumber (radix maxDigits : Nat) (zeroPrefix : Bool) (bound : Nat) : Reader Nat := fun text =>
  let digits := text.takeWhile (fun c => (digit? radix c).isSome)
  let value := digits.foldl (fun total c => total * radix + (digit? radix c).getD 0) 0
  if digits = [] ∨ maxDigits < digits.length then none
  else if !zeroPrefix && digits.head? == some '0' && decide (1 < digits.length) then none
  else if value < bound then some (value, text.dropWhile (fun c => (digit? radix c).isSome))
  else none

/-- All parts but the first come after a separator. -/
def separated {α : Type} (sep : Char) (index : Nat) (inner : Reader α) : Reader α := fun text =>
  if index = 0 then inner text
  else match text with
    | [] => none
    | c :: rest => if c = sep then inner rest else none

/-- Octets without leading zeros, lest one is taken for octal. -/
def readIpv4 : Reader Nat := fun text => do
  let (one, text) ← separated '.' 0 (readNumber 10 3 false 256) text
  let (two, text) ← separated '.' 1 (readNumber 10 3 false 256) text
  let (three, text) ← separated '.' 2 (readNumber 10 3 false 256) text
  let (four, text) ← separated '.' 3 (readNumber 10 3 false 256) text
  return (((one * 256 + two) * 256 + three) * 256 + four, text)

/-- Up to so many groups, and whether octets ended them; they need room for two groups. -/
def readGroups (index : Nat) : Nat → List Char → List Nat × Bool × List Char
  | 0, text => ([], false, text)
  | remaining + 1, text =>
    match (if remaining = 0 then none else separated ':' index readIpv4 text) with
    | some (octets, rest) => ([octets / 65536, octets % 65536], true, rest)
    | none =>
      match separated ':' index (readNumber 16 4 true 65536) text with
      | some (group, rest) =>
        let (groups, embedded, rest) := readGroups (index + 1) remaining rest
        (group :: groups, embedded, rest)
      | none => ([], false, text)

/-- Eight groups, or fewer around a gap, which stands for one group at least. -/
def readIpv6 : Reader (List Nat) := fun text =>
  let (head, embedded, rest) := readGroups 0 8 text
  if head.length = 8 then some (head, rest)
  else if embedded then none
  else match rest with
    | ':' :: ':' :: rest =>
      let (tail, _, rest) := readGroups 0 (7 - head.length) rest
      some (head ++ List.replicate (8 - head.length - tail.length) 0 ++ tail, rest)
    | _ => none

/-- The address a text spells, to its last character. -/
def parseIp (text : String) : Option IpAddr :=
  match readIpv4 text.toList with
  | some (octets, rest) => if rest = [] then some (.v4 (BitVec.ofNat 32 octets)) else none
  | none =>
    match readIpv6 text.toList with
    | some (groups, rest) =>
      if rest = [] then some (.v6 (BitVec.ofNat 128 (groups.foldl (fun total group => total * 65536 + group) 0)))
      else none
    | none => none

example : parseIp "10.0.0.2" = some (.v4 0x0A000002) := by decide
example : parseIp "::ffff:10.0.0.2" = some (.v6 0xFFFF0A000002) := by decide
example : parseIp "1.2.3.4:80" = none := by decide

end Reading

end ToolArtifactRegistry.Library.Addresses

/-! Masks of leading ones: what is left of a word under one is its first bits, and two words agree
under it just when they agree on these. -/
namespace ToolArtifactRegistry.Library.Masks

variable {w : Nat}

/-- A word that begins with so many ones; a shift by the whole width is avoided. -/
def leading (w len : Nat) : BitVec w := if len = 0 then 0 else BitVec.allOnes w <<< (w - len)

theorem getMsbD_leading {len : Nat} (fits : len ≤ w) (i : Nat) : (leading w len).getMsbD i = decide (i < len) := by
  by_cases empty : len = 0
  · simp [leading, empty]
  · rw [leading, if_neg empty, BitVec.getMsbD_shiftLeft, BitVec.getMsbD_allOnes]
    apply decide_eq_decide.2
    omega

theorem getMsbD_masked {len : Nat} (fits : len ≤ w) (x : BitVec w) (i : Nat) :
    (x &&& leading w len).getMsbD i = (x.getMsbD i && decide (i < len)) := by
  rw [BitVec.getMsbD_and, getMsbD_leading fits]

theorem masked_eq_iff {len : Nat} (fits : len ≤ w) (x y : BitVec w) :
    x &&& leading w len = y &&& leading w len ↔ ∀ i < len, x.getMsbD i = y.getMsbD i := by
  constructor
  · intro same i below
    have bits := congrArg (fun word => word.getMsbD i) same
    simpa [getMsbD_masked fits, below] using bits
  · intro agree
    apply BitVec.eq_of_getMsbD_eq
    intro i _
    rw [getMsbD_masked fits, getMsbD_masked fits]
    by_cases below : i < len
    · rw [agree i below]
    · simp [below]

/-- Masking again changes nothing. -/
theorem masked_again (x mask : BitVec w) : x &&& mask &&& mask = x &&& mask := by
  rw [BitVec.and_assoc, BitVec.and_self]

end ToolArtifactRegistry.Library.Masks

/-! Spans of numbers, and the words whose first bits are given as such a span. -/
namespace ToolArtifactRegistry.Library.Spans

/-- The numbers from one to another, both included. -/
structure Span where
  lo : Nat
  hi : Nat
  deriving DecidableEq

/-- The numbers that agree with one but for their last bits. -/
def block (start bits : Nat) : Span := ⟨start, start + (2 ^ bits - 1)⟩

def Span.Holds (span : Span) (n : Nat) : Prop := span.lo ≤ n ∧ n ≤ span.hi

instance (span : Span) (n : Nat) : Decidable (span.Holds n) := inferInstanceAs (Decidable (_ ∧ _))

def Covers (spans : List Span) (n : Nat) : Prop := ∃ span ∈ spans, span.Holds n

instance (spans : List Span) (n : Nat) : Decidable (Covers spans n) := inferInstanceAs (Decidable (∃ span ∈ spans, _))

def Span.Apart (one other : Span) : Prop := one.hi < other.lo ∨ other.hi < one.lo

instance (one other : Span) : Decidable (one.Apart other) := inferInstanceAs (Decidable (_ ∨ _))

def Apart (some_ others : List Span) : Prop := ∀ one ∈ some_, ∀ other ∈ others, one.Apart other

instance (some_ others : List Span) : Decidable (Apart some_ others) :=
  inferInstanceAs (Decidable (∀ one ∈ some_, ∀ other ∈ others, one.Apart other))

theorem Apart.not_both {some_ others : List Span} (apart : Apart some_ others) {n : Nat} (first : Covers some_ n) :
    ¬Covers others n := by
  rintro ⟨other, there, low, high⟩
  obtain ⟨one, here, below, above⟩ := first
  have parted := apart one here other there
  unfold Span.Apart at parted
  omega

theorem covers_append {some_ others : List Span} {n : Nat} : Covers (some_ ++ others) n ↔ Covers some_ n ∨ Covers others n := by
  simp only [Covers, List.mem_append, or_and_right, exists_or]

theorem covers_cons {span : Span} {spans : List Span} {n : Nat} : Covers (span :: spans) n ↔ span.Holds n ∨ Covers spans n := by
  simp only [Covers, List.mem_cons, exists_eq_or_imp]

theorem not_covers_nil {n : Nat} : ¬Covers [] n := by
  simp [Covers]

theorem Covers.mono {some_ others : List Span} (subset : some_ ⊆ others) {n : Nat} (covers : Covers some_ n) : Covers others n := by
  obtain ⟨span, mem, holds⟩ := covers
  exact ⟨span, subset mem, holds⟩

theorem Covers.inside {some_ others : List Span} (inside : ∀ one ∈ some_, ∃ other ∈ others, other.lo ≤ one.lo ∧ one.hi ≤ other.hi)
    {n : Nat} (covers : Covers some_ n) : Covers others n := by
  obtain ⟨one, mem, low, high⟩ := covers
  obtain ⟨other, there, below, above⟩ := inside one mem
  exact ⟨other, there, Nat.le_trans below low, Nat.le_trans high above⟩

/-- Masking the last bits away leaves a word just when it lies in that word's block. -/
theorem masked_eq_iff {w : Nat} (x y : BitVec w) (bits : Nat) (aligned : y.toNat % 2 ^ bits = 0) :
    x &&& BitVec.allOnes w <<< bits = y ↔ (block y.toNat bits).Holds x.toNat := by
  have value : (x >>> bits <<< bits).toNat = x.toNat / 2 ^ bits * 2 ^ bits := by
    have small : x.toNat / 2 ^ bits * 2 ^ bits < 2 ^ w := Nat.lt_of_le_of_lt (Nat.div_mul_le_self _ _) x.isLt
    rw [BitVec.toNat_shiftLeft, BitVec.toNat_ushiftRight, Nat.shiftRight_eq_div_pow, Nat.shiftLeft_eq, Nat.mod_eq_of_lt small]
  have pos : 0 < 2 ^ bits := Nat.two_pow_pos bits
  have whole := Nat.div_add_mod x.toNat (2 ^ bits)
  have rest := Nat.mod_lt x.toNat pos
  have parts := Nat.div_add_mod y.toNat (2 ^ bits)
  rw [aligned, Nat.add_zero] at parts
  rw [← BitVec.shiftLeft_ushiftRight, ← BitVec.toNat_inj, value]
  unfold block Span.Holds
  dsimp only
  constructor
  · intro same
    rw [Nat.mul_comm] at same
    omega
  · rintro ⟨low, high⟩
    have quotient : x.toNat / 2 ^ bits = y.toNat / 2 ^ bits := by
      apply Nat.div_eq_of_lt_le
      · rw [Nat.mul_comm, parts]
        exact low
      · rw [Nat.succ_mul, Nat.mul_comm, parts]
        omega
    rw [quotient, Nat.mul_comm, parts]

end ToolArtifactRegistry.Library.Spans
