import Mathlib.Algebra.Group.Nat.Defs
import Mathlib.Data.List.Induction
import ToolArtifactRegistry.Library.Text

/-! Single-precision numbers: every finite one is a whole number of units of 2^-149, and decimals are rounded to the
nearest, to even at a midpoint. -/
namespace ToolArtifactRegistry.Library.Floats

/-- A number in units of 2^-149, the infinities at 2^128 in them; `none` is no number. -/
abbrev Single := Option Int

def unit : Nat := 2 ^ 149
def infinite : Nat := 2 ^ 128 * unit

def one : Single := some unit

/-- The comparison `>`; what is no number compares with nothing. -/
def heavier : Single → Single → Bool
  | some m, some n => decide (n < m)
  | _, _ => false

/-- The spacing of the numbers about a whole number of units: 24 bits are kept. -/
def quantum (whole : Nat) : Nat := 2 ^ (Nat.log2 whole + 1 - 24)

/-- `a / b` to the nearest whole number, to even at a midpoint. -/
def nearest (a b : Nat) : Nat :=
  if 2 * (a % b) < b then a / b
  else if b < 2 * (a % b) then a / b + 1
  else a / b + a / b % 2

/-- The fraction `p / q` in units. -/
def round (p q : Nat) : Nat :=
  let grid := quantum (p * unit / q)
  min (nearest (p * unit) (q * grid) * grid) infinite

/-- The value of some digits. -/
def digitsValue (digits : List Char) : Nat := (Text.digits? 0 digits).getD 0

/-- Whether a text is negative, and what follows its sign. -/
def signOf : List Char → Bool × List Char
  | '-' :: rest => (true, rest)
  | '+' :: rest => (false, rest)
  | rest => (false, rest)

def exponent : List Char → Option Int
  | [] => some 0
  | e :: rest =>
    if e = 'e' ∨ e = 'E' then
      let (negative, digits) := signOf rest
      if digits.isEmpty || !digits.all Char.isDigit then none
      else some (if negative then -(digitsValue digits : Int) else digitsValue digits)
    else none

/-- The digits after a point, and what follows them. -/
def fractionOf : List Char → List Char × List Char
  | '.' :: more => (more.takeWhile Char.isDigit, more.dropWhile Char.isDigit)
  | rest => ([], rest)

/-- Some digits times a power of ten, as a fraction. -/
def shifted (digits : List Char) (ten : Int) : Nat × Nat := (digitsValue digits * 10 ^ ten.toNat, 10 ^ (-ten).toNat)

/-- The fraction that a decimal without a sign writes. -/
def decimal (text : List Char) : Option (Nat × Nat) :=
  let whole := text.takeWhile Char.isDigit
  let parts := fractionOf (text.dropWhile Char.isDigit)
  if (whole ++ parts.1).isEmpty then none
  else (exponent parts.2).map (fun e => shifted (whole ++ parts.1) (e - (parts.1.length : Int)))

/-- The number a text writes, in the grammar of the standard library. -/
def parse (text : String) : Option Single :=
  let (negative, rest) := signOf text.toList
  let word := String.ofList (rest.map Text.asciiLower)
  let signed (units : Nat) : Single := some (if negative then -(units : Int) else units)
  if word = "nan" then some none
  else if word = "inf" ∨ word = "infinity" then some (signed infinite)
  else (decimal rest).map (fun fraction => signed (round fraction.1 fraction.2))

theorem signOf_plain {c : Char} {rest : List Char} (minus : c ≠ '-') (plus : c ≠ '+') : signOf (c :: rest) = (false, c :: rest) := by
  unfold signOf
  split
  · rename_i shape
    exact absurd (List.cons.inj shape).1 minus
  · rename_i shape
    exact absurd (List.cons.inj shape).1 plus
  · rfl

theorem decimal_start {text : List Char} {fraction : Nat × Nat} (read : decimal text = some fraction) :
    ∃ c rest, text = c :: rest ∧ (c.isDigit = true ∨ c = '.') := by
  cases text with
  | nil => cases read
  | cons c rest =>
    refine ⟨c, rest, rfl, ?_⟩
    by_contra other
    have letter : c.isDigit = false := Bool.not_eq_true _ ▸ fun digit => other (Or.inl digit)
    have whole : (c :: rest).takeWhile Char.isDigit = [] := by rw [List.takeWhile_cons, letter]; rfl
    have after : (c :: rest).dropWhile Char.isDigit = c :: rest := by rw [List.dropWhile_cons, letter]; rfl
    have parts : fractionOf (c :: rest) = ([], c :: rest) := by
      unfold fractionOf
      split
      · rename_i shape
        exact absurd (Or.inr (List.cons.inj shape).1) other
      · rfl
    rw [decimal, whole, after, parts] at read
    cases read

theorem decimal_positive {text : List Char} {fraction : Nat × Nat} (read : decimal text = some fraction) : 0 < fraction.2 := by
  rw [decimal] at read
  split at read
  · cases read
  · obtain ⟨e, _, same⟩ := Option.map_eq_some_iff.1 read
    rw [← same]
    exact Nat.pow_pos (by decide)

theorem asciiLower_number {c : Char} (start : c.isDigit = true ∨ c = '.') : Text.asciiLower c = c := by
  rcases start with digit | rfl
  · refine if_neg fun capital => ?_
    have bound : c.toNat ≤ 57 := by
      rw [Char.isDigit, Bool.and_eq_true, decide_eq_true_eq, decide_eq_true_eq] at digit
      exact digit.2
    have above : 65 ≤ c.toNat := capital.1
    omega
  · rfl

/-- A decimal without a sign reads as the number nearest to it. -/
theorem parse_decimal {text : String} {fraction : Nat × Nat} (read : decimal text.toList = some fraction) :
    parse text = some (some (round fraction.1 fraction.2 : Int)) := by
  obtain ⟨c, rest, letters, start⟩ := decimal_start read
  have plain : ∀ d : Char, d.isDigit = false → d ≠ '.' → c ≠ d := by
    rintro d letter point rfl
    rcases start with digit | dot
    · rw [letter] at digit
      cases digit
    · exact point dot
  have sign : signOf text.toList = (false, text.toList) := by
    rw [letters]
    exact signOf_plain (plain '-' (by decide) (by decide)) (plain '+' (by decide) (by decide))
  have word : ∀ w : String, (∃ d more, w.toList = d :: more ∧ d.isDigit = false ∧ d ≠ '.') →
      String.ofList (text.toList.map Text.asciiLower) ≠ w := by
    rintro w ⟨d, more, shape, letter, point⟩ same
    rw [← same, String.toList_ofList, letters, List.map_cons, asciiLower_number start] at shape
    exact plain d letter point (List.cons.inj shape).1
  rw [parse, sign]
  dsimp only
  rw [if_neg (word "nan" ⟨'n', ['a', 'n'], rfl, by decide, by decide⟩), if_neg, read]
  · rfl
  · rintro (inf | infinity)
    · exact word "inf" ⟨'i', ['n', 'f'], rfl, by decide, by decide⟩ inf
    · exact word "infinity" ⟨'i', "nfinity".toList, rfl, by decide, by decide⟩ infinity

theorem nearest_error {a b : Nat} (positive : 0 < b) : 2 * (nearest a b * b) ≤ 2 * a + b ∧ 2 * a ≤ 2 * (nearest a b * b) + b := by
  have whole := Nat.div_add_mod a b
  have small := Nat.mod_lt a positive
  rw [Nat.mul_comm] at whole
  unfold nearest
  split
  · omega
  · split
    · rw [Nat.add_mul]
      omega
    · rcases Nat.mod_two_eq_zero_or_one (a / b) with even | odd
      · rw [even, Nat.add_zero]
        omega
      · rw [odd, Nat.add_mul]
        omega

theorem nearest_scale {a b c : Nat} (positive : 0 < c) : nearest (a * c) (b * c) = nearest a b := by
  have remainder : a * c % (b * c) = a % b * c := Nat.mul_mod_mul_right c a b
  have quotient : a * c / (b * c) = a / b := Nat.mul_div_mul_right a b positive
  have below : 2 * (a % b * c) < b * c ↔ 2 * (a % b) < b := by
    rw [← Nat.mul_assoc]
    exact Nat.mul_lt_mul_right positive
  have above : b * c < 2 * (a % b * c) ↔ b < 2 * (a % b) := by
    rw [← Nat.mul_assoc]
    exact Nat.mul_lt_mul_right positive
  simp only [nearest, remainder, quotient, below, above]

theorem round_scale {p q c : Nat} (positive : 0 < c) : round (p * c) (q * c) = round p q := by
  have units : p * c * unit = p * unit * c := Nat.mul_right_comm p c unit
  have quotient : p * unit * c / (q * c) = p * unit / q := Nat.mul_div_mul_right _ _ positive
  have divisor : q * c * quantum (p * unit / q) = q * quantum (p * unit / q) * c := Nat.mul_right_comm _ _ _
  simp only [round, units, quotient, divisor, nearest_scale positive]

/-- Equal fractions are one number. -/
theorem round_eq {p q r s : Nat} (left : 0 < q) (right : 0 < s) (same : p * s = r * q) : round p q = round r s := by
  rw [← round_scale right, same, Nat.mul_comm q s, round_scale left]

theorem quantum_le {whole : Nat} (small : whole ≤ unit) : quantum whole ≤ 2 ^ 126 := by
  have log : Nat.log2 whole ≤ 149 := by
    by_cases zero : whole = 0
    · rw [zero]
      decide
    · have below : whole < 2 ^ 150 := Nat.lt_of_le_of_lt small (by decide)
      have := (Nat.log2_lt zero).2 below
      omega
  exact Nat.pow_le_pow_right (by decide) (by omega)

/-- A fraction up to one is rounded by less than the distance of thousandths. -/
theorem round_error {p q : Nat} (positive : 0 < q) (small : p ≤ q) :
    round p q * q ≤ p * unit + q * 2 ^ 125 ∧ p * unit ≤ round p q * q + q * 2 ^ 125 := by
  have within : p * unit / q ≤ unit := Nat.div_le_of_le_mul (Nat.mul_le_mul_right unit small)
  have spacing := quantum_le within
  have some_ : 0 < quantum (p * unit / q) := Nat.pow_pos (by decide)
  generalize grid_eq : quantum (p * unit / q) = grid at spacing some_
  obtain ⟨upper, lower⟩ := nearest_error (a := p * unit) (Nat.mul_pos positive some_)
  generalize count_eq : nearest (p * unit) (q * grid) = count at upper lower
  have product : count * (q * grid) = count * grid * q := by rw [Nat.mul_comm q grid, Nat.mul_assoc]
  have margin : q * grid ≤ q * 2 ^ 126 := Nat.mul_le_mul_left q spacing
  have half : q * 2 ^ 126 = 2 * (q * 2 ^ 125) := by rw [Nat.pow_succ, Nat.mul_comm (2 ^ 125) 2, Nat.mul_left_comm]
  rw [product] at upper lower
  have total : p * unit ≤ q * unit := Nat.mul_le_mul_right unit small
  have finite : count * grid ≤ infinite := by
    have bound : count * grid * q ≤ infinite * q := by
      have room : q * unit + q * 2 ^ 125 ≤ infinite * q := by
        rw [← Nat.mul_add, Nat.mul_comm]
        exact Nat.mul_le_mul_right q (by decide)
      omega
    exact Nat.le_of_mul_le_mul_right bound positive
  have value : round p q = count * grid := by
    simp only [round, grid_eq, count_eq]
    exact Nat.min_eq_left finite
  rw [value]
  omega

/-- Thousandths up to one keep their order. -/
theorem round_thousandths {p q r s k l : Nat} (left : 0 < q) (right : 0 < s) (first : p * 1000 = k * q) (second : r * 1000 = l * s)
    (small : k ≤ 1000 ∧ l ≤ 1000) : round p q < round r s ↔ k < l := by
  have value : ∀ {p q k : Nat}, 0 < q → p * 1000 = k * q → round p q = round k 1000 :=
    fun positive same => round_eq positive (by decide) same
  rw [value left first, value right second]
  have strict : ∀ {k l : Nat}, l ≤ 1000 → k < l → round k 1000 < round l 1000 := by
    intro k l bound less
    have up := (round_error (p := k) (q := 1000) (by decide) (by omega)).1
    have down := (round_error (p := l) (q := 1000) (by decide) bound).2
    have next : (k + 1) * unit ≤ l * unit := Nat.mul_le_mul_right unit less
    rw [Nat.add_mul, Nat.one_mul] at next
    have far : 2 * (1000 * 2 ^ 125) < unit := by decide
    omega
  constructor
  · intro less
    by_contra other
    rcases Nat.lt_or_eq_of_le (Nat.le_of_not_lt other) with above | same
    · have := strict small.1 above
      omega
    · rw [same] at less
      omega
  · exact strict small.2

theorem round_one : round 1 1 = unit := by decide

theorem one_eq : one = some (round 1 1 : Int) := by rw [one, round_one]

section

variable {α : Type}

/-- A weighed item takes over where it is heavier than the best so far. -/
def better (best : Option (α × Single)) (item : α × Single) : Option (α × Single) :=
  match best with
  | none => some item
  | some held => if heavier item.2 held.2 then some item else some held

/-- Of two comparisons that lead the same way the last is no way back. -/
theorem heavier_below {a b c : Single} (above : heavier a b = true) (under : heavier c b = false) : heavier c a = false := by
  cases a with
  | none => cases above
  | some m =>
    cases b with
    | none => cases above
    | some n =>
      cases c with
      | none => rfl
      | some k =>
        simp only [heavier, decide_eq_true_eq, decide_eq_false_iff_not] at above under ⊢
        omega

/-- The first of the heaviest: none is heavier, and what stands before it is lighter or weighs nothing comparable. -/
structure Heaviest (items : List (α × Single)) (best : α × Single) : Prop where
  unbeaten : ∀ item ∈ items, heavier item.2 best.2 = false
  first : ∃ before after, items = before ++ best :: after ∧ ∀ item ∈ before, heavier best.2 item.2 = true ∨ item.2 = none

theorem heavier_of_comparable {a b c : Single} (above : heavier a b = true) (under : heavier c b = false) :
    heavier a c = true ∨ c = none := by
  cases a with
  | none => cases above
  | some m =>
    cases b with
    | none => cases above
    | some n =>
      cases c with
      | none => exact Or.inr rfl
      | some k =>
        simp only [heavier, decide_eq_true_eq, decide_eq_false_iff_not] at above under
        left
        simp only [heavier, decide_eq_true_eq]
        omega

theorem foldl_better (items : List (α × Single)) :
    match items.foldl better none with
    | none => items = []
    | some best => Heaviest items best := by
  induction items using List.reverseRecOn with
  | nil => rfl
  | append_singleton items item ih =>
    rw [List.foldl_append]
    cases held : items.foldl better none with
    | none =>
      rw [held] at ih
      rw [ih]
      exact ⟨fun other mem => by
        rw [List.mem_singleton.1 mem]
        cases item.2 <;> simp [heavier], [], [], rfl, fun _ mem => by cases mem⟩
    | some best =>
      rw [held] at ih
      obtain ⟨unbeaten, before, after, whole, earlier⟩ := ih
      simp only [List.foldl_cons, List.foldl_nil, better]
      by_cases above : heavier item.2 best.2 = true
      · rw [if_pos above]
        refine ⟨?_, items, [], rfl, ?_⟩
        · intro other mem
          rcases List.mem_append.1 mem with old | new
          · exact heavier_below above (unbeaten other old)
          · rw [List.mem_singleton.1 new]
            cases item.2 <;> simp [heavier]
        · intro other mem
          exact heavier_of_comparable above (unbeaten other mem)
      · rw [if_neg above]
        refine ⟨?_, before, after ++ [item], ?_, earlier⟩
        · intro other mem
          rcases List.mem_append.1 mem with old | new
          · exact unbeaten other old
          · rw [List.mem_singleton.1 new]
            exact Bool.not_eq_true _ ▸ above
        · rw [whole, List.append_assoc]
          rfl

end

end ToolArtifactRegistry.Library.Floats
