import Mathlib.Data.Nat.Find
import Mathlib.Order.Monotone.Basic
import Mathlib.Tactic.Ring
import ToolArtifactRegistry.Library.Decimals

/-! Instants of a calendar in universal time, their order, and the texts that spell them, with as many digits of a
fraction as they need: in four digits of the year the texts are ordered as the instants are, and are read back. -/
namespace ToolArtifactRegistry.Library.Instants

open Text

/-! The calendar. -/

def isLeap (year : Nat) : Bool := year % 4 == 0 && (year % 100 != 0 || year % 400 == 0)

def daysIn (year month : Nat) : Nat :=
  if month = 2 then if isLeap year then 29 else 28
  else if month = 4 ∨ month = 6 ∨ month = 9 ∨ month = 11 then 30 else 31

/-- The days before a year begins; every fourth year has one more, of the hundreds only every fourth. -/
def daysBefore (year : Nat) : Nat := 365 * year + ((year + 3) / 4 + (year + 399) / 400 - (year + 99) / 100)

/-- The days of the first months of a year. -/
def monthDays (year : Nat) : Nat → Nat
  | 0 => 0
  | months + 1 => monthDays year months + daysIn year (months + 1)

@[simp] theorem daysBefore_zero : daysBefore 0 = 0 := rfl

theorem daysBefore_ge (year : Nat) : 365 * year ≤ daysBefore year := Nat.le_add_right _ _

theorem monthDays_mono (year : Nat) : Monotone (monthDays year) :=
  monotone_nat_of_le_succ (fun _ => Nat.le_add_right _ _)

theorem monthDays_year (year : Nat) : monthDays year 12 = if isLeap year then 366 else 365 := by
  simp only [monthDays, daysIn]
  cases isLeap year <;> rfl

/-- A year is over when its months are. -/
theorem daysBefore_succ (year : Nat) : daysBefore (year + 1) = daysBefore year + monthDays year 12 := by
  rw [monthDays_year]
  unfold daysBefore isLeap
  split
  · next leap =>
    simp only [Bool.and_eq_true, beq_iff_eq, Bool.or_eq_true, bne_iff_ne] at leap
    omega
  · next common =>
    simp only [Bool.and_eq_true, beq_iff_eq, Bool.or_eq_true, bne_iff_ne] at common
    omega

theorem daysBefore_mono : Monotone daysBefore :=
  monotone_nat_of_le_succ (fun year => daysBefore_succ year ▸ Nat.le_add_right _ _)

/-! Instants. -/

/-- A leap second is the fifty-ninth second going on. -/
@[ext] structure Instant where
  year : Nat
  month : Nat
  day : Nat
  hour : Nat
  minute : Nat
  second : Nat
  nano : Nat
  months : 1 ≤ month ∧ month ≤ 12
  days : 1 ≤ day ∧ day ≤ daysIn year month
  hours : hour < 24
  minutes : minute < 60
  seconds : second < 60
  nanos : nano < 1000000000 ∨ second = 59 ∧ nano < 2000000000

namespace Instant

def dayNumber (i : Instant) : Nat := daysBefore i.year + (monthDays i.year (i.month - 1) + (i.day - 1))

/-- The seconds that have passed since the calendar began, leap seconds not counted. -/
def elapsed (i : Instant) : Nat := ((i.dayNumber * 24 + i.hour) * 60 + i.minute) * 60 + i.second

/-- The order of time: an instant is not after another. -/
def upTo (earlier later : Instant) : Prop :=
  earlier.elapsed < later.elapsed ∨ earlier.elapsed = later.elapsed ∧ earlier.nano ≤ later.nano

instance (earlier later : Instant) : Decidable (earlier.upTo later) :=
  inferInstanceAs (Decidable (_ ∨ _))

/-- A day lies in its month. -/
theorem day_within (i : Instant) : monthDays i.year (i.month - 1) + (i.day - 1) < monthDays i.year i.month := by
  obtain ⟨first, _⟩ := i.months
  obtain ⟨begun, within⟩ := i.days
  have month : monthDays i.year i.month = monthDays i.year (i.month - 1) + daysIn i.year i.month := by
    obtain ⟨before, same⟩ : ∃ before, i.month = before + 1 := ⟨i.month - 1, by omega⟩
    rw [same]
    rfl
  omega

/-- A day lies in its year. -/
theorem dayNumber_within (i : Instant) : i.dayNumber < daysBefore (i.year + 1) := by
  have month := i.day_within
  have year := monthDays_mono i.year i.months.2
  rw [daysBefore_succ, dayNumber]
  omega

/-- On an earlier day, by its date. -/
def sooner (earlier later : Instant) : Prop :=
  earlier.year < later.year ∨ earlier.year = later.year ∧
    (earlier.month < later.month ∨ earlier.month = later.month ∧ earlier.day < later.day)

theorem dayNumber_lt {earlier later : Instant} (before : earlier.sooner later) : earlier.dayNumber < later.dayNumber := by
  have begun := earlier.days.1
  rcases before with year | ⟨year, month | ⟨month, day⟩⟩
  · calc earlier.dayNumber < daysBefore (earlier.year + 1) := earlier.dayNumber_within
      _ ≤ daysBefore later.year := daysBefore_mono year
      _ ≤ later.dayNumber := Nat.le_add_right _ _
  · have within := earlier.day_within
    have through := monthDays_mono later.year (show earlier.month ≤ later.month - 1 by omega)
    unfold dayNumber
    rw [year] at within ⊢
    omega
  · unfold dayNumber
    rw [year, month]
    omega

/-- Instants of different days are ordered as the days are. -/
theorem upTo_of_day {earlier later : Instant} (before : earlier.dayNumber < later.dayNumber) :
    earlier.upTo later ∧ ¬later.upTo earlier := by
  have first := earlier.hours
  have second := earlier.minutes
  have third := earlier.seconds
  unfold upTo elapsed
  omega

end Instant

/-! Instants by their nanoseconds. -/

def yearOf (day : Nat) : Nat := Nat.findGreatest (fun year => daysBefore year ≤ day) (day / 365)

/-- The whole months that have passed after so many days of a year. -/
def monthsIn (year day : Nat) : Nat := Nat.findGreatest (fun months => monthDays year months ≤ day) 11

theorem daysBefore_yearOf (day : Nat) : daysBefore (yearOf day) ≤ day :=
  Nat.findGreatest_spec (P := fun year => daysBefore year ≤ day) (Nat.zero_le _) (Nat.zero_le day)

theorem lt_yearOf (day : Nat) : day < daysBefore (yearOf day + 1) := by
  by_cases known : yearOf day + 1 ≤ day / 365
  · have later := Nat.findGreatest_is_greatest (Nat.lt_add_one (yearOf day)) known
    omega
  · have enough := daysBefore_ge (yearOf day + 1)
    omega

theorem monthDays_monthsIn (year day : Nat) : monthDays year (monthsIn year day) ≤ day :=
  Nat.findGreatest_spec (P := fun months => monthDays year months ≤ day) (Nat.zero_le _) (Nat.zero_le day)

theorem lt_monthsIn {year day : Nat} (within : day < monthDays year 12) : day < monthDays year (monthsIn year day + 1) := by
  by_cases known : monthsIn year day + 1 ≤ 11
  · have later := Nat.findGreatest_is_greatest (Nat.lt_add_one (monthsIn year day)) known
    omega
  · have last : monthsIn year day ≤ 11 := Nat.findGreatest_le 11
    rw [show monthsIn year day + 1 = 12 by omega]
    exact within

theorem within_yearOf (day : Nat) : day - daysBefore (yearOf day) < monthDays (yearOf day) 12 := by
  have begun := daysBefore_yearOf day
  have within := lt_yearOf day
  rw [daysBefore_succ] at within
  omega

/-- The instant at which so many nanoseconds have passed since the calendar began. -/
def ofCount (count : Nat) : Instant :=
  let day := count / 1000000000 / 86400
  let rest := day - daysBefore (yearOf day)
  { year := yearOf day
    month := monthsIn (yearOf day) rest + 1
    day := rest - monthDays (yearOf day) (monthsIn (yearOf day) rest) + 1
    hour := count / 1000000000 / 3600 % 24
    minute := count / 1000000000 / 60 % 60
    second := count / 1000000000 % 60
    nano := count % 1000000000
    months := by
      have last : monthsIn (yearOf day) rest ≤ 11 := Nat.findGreatest_le 11
      omega
    days := by
      have within : rest < monthDays (yearOf day) (monthsIn (yearOf day) rest) +
          daysIn (yearOf day) (monthsIn (yearOf day) rest + 1) := lt_monthsIn (within_yearOf day)
      have begun := monthDays_monthsIn (yearOf day) rest
      omega
    hours := Nat.mod_lt _ (by decide)
    minutes := Nat.mod_lt _ (by decide)
    seconds := Nat.mod_lt _ (by decide)
    nanos := Or.inl (Nat.mod_lt _ (by decide)) }

theorem elapsed_ofCount (count : Nat) : (ofCount count).elapsed = count / 1000000000 := by
  have day : (ofCount count).dayNumber = count / 1000000000 / 86400 := by
    have begun := daysBefore_yearOf (count / 1000000000 / 86400)
    have passed := monthDays_monthsIn (yearOf (count / 1000000000 / 86400))
      (count / 1000000000 / 86400 - daysBefore (yearOf (count / 1000000000 / 86400)))
    unfold Instant.dayNumber ofCount
    simp only [Nat.add_sub_cancel]
    omega
  rw [Instant.elapsed, day]
  simp only [ofCount]
  omega

/-- The nanoseconds that have passed since the calendar began. -/
def Instant.count (i : Instant) : Nat := i.elapsed * 1000000000 + i.nano

theorem count_ofCount (count : Nat) : (ofCount count).count = count := by
  have nano : (ofCount count).nano = count % 1000000000 := rfl
  rw [Instant.count, elapsed_ofCount, nano]
  omega

/-! Digits. -/

def digit (n : Nat) : Char := Char.ofNat (48 + n % 10)

/-- The last `k` decimal digits, the most significant first. -/
def pad : Nat → Nat → List Char
  | 0, _ => []
  | k + 1, n => digit (n / 10 ^ k) :: pad k n

theorem digit_toNat (n : Nat) : (digit n).toNat = 48 + n % 10 := by
  have all : ∀ d < 10, (Char.ofNat (48 + d)).toNat = 48 + d := by decide
  exact all _ (Nat.mod_lt n (by decide))

theorem digit_inj {m n : Nat} : digit m = digit n ↔ m % 10 = n % 10 := by
  rw [← Char.toNat_inj, digit_toNat, digit_toNat]
  omega

@[simp] theorem length_pad (k n : Nat) : (pad k n).length = k := by
  induction k with
  | zero => rfl
  | succ k ih => rw [pad, List.length_cons, ih]

theorem pad_add (j k n : Nat) : pad (j + k) n = pad j (n / 10 ^ k) ++ pad k n := by
  induction j with
  | zero => rw [Nat.zero_add, pad, List.nil_append]
  | succ j ih => rw [Nat.succ_add, pad, pad, ih, List.cons_append, Nat.div_div_eq_div_mul, ← Nat.pow_add, Nat.add_comm k j]

/-- Texts that begin with as many digits are ordered as the numbers are, and behind equal digits as they go on. -/
theorem charsLe_pad (k m n : Nat) (left right : List Char) : charsLe (pad k m ++ left) (pad k n ++ right) =
    if m % 10 ^ k = n % 10 ^ k then charsLe left right else decide (m % 10 ^ k < n % 10 ^ k) := by
  induction k with
  | zero => simp [pad, Nat.mod_one]
  | succ k ih =>
    rw [pad, pad, List.cons_append, List.cons_append, charsLe, ih, Nat.mod_pow_succ, Nat.mod_pow_succ]
    have little := Nat.mod_lt m (Nat.pow_pos (n := k) (show 0 < 10 by decide))
    have small := Nat.mod_lt n (Nat.pow_pos (n := k) (show 0 < 10 by decide))
    generalize 10 ^ k = p at *
    by_cases same : m / p % 10 = n / p % 10
    · rw [if_pos (digit_inj.2 same), same]
      simp only [Nat.add_right_cancel_iff, Nat.add_lt_add_iff_right]
    · rw [if_neg (fun equal => same (digit_inj.1 equal)), digit_toNat, digit_toNat]
      rcases Nat.lt_or_gt_of_ne same with below | above
      · have apart : p * (m / p % 10) + p ≤ p * (n / p % 10) := by
          rw [← Nat.mul_succ]
          exact Nat.mul_le_mul_left p below
        rw [if_neg (by omega), decide_eq_decide]
        omega
      · have apart : p * (n / p % 10) + p ≤ p * (m / p % 10) := by
          rw [← Nat.mul_succ]
          exact Nat.mul_le_mul_left p above
        rw [if_neg (by omega), decide_eq_decide]
        omega

theorem charsLe_pad_of_lt {k m n : Nat} (little : m < 10 ^ k) (small : n < 10 ^ k) (left right : List Char) :
    charsLe (pad k m ++ left) (pad k n ++ right) = if m = n then charsLe left right else decide (m < n) := by
  rw [charsLe_pad, Nat.mod_eq_of_lt little, Nat.mod_eq_of_lt small]

theorem charsLe_cons (c : Char) (left right : List Char) : charsLe (c :: left) (c :: right) = charsLe left right := by
  rw [charsLe, if_pos rfl]

/-! The texts of instants. -/

/-- How many digits a fraction of a second has. -/
def precision (nano : Nat) : Nat :=
  if nano = 0 then 0 else if nano % 1000000 = 0 then 3 else if nano % 1000 = 0 then 6 else 9

def fraction (nano : Nat) : List Char :=
  if nano = 0 then [] else '.' :: pad (precision nano) (nano / 10 ^ (9 - precision nano))

/-- The offset of universal time. -/
def offset : List Char := ['+', '0', '0', ':', '0', '0']

/-- A year of more than four digits has a sign. -/
def yearText (year : Nat) : List Char := if year ≤ 9999 then pad 4 year else '+' :: Nat.toDigits 10 year

/-- The text of an instant after RFC 3339. -/
def Instant.text (i : Instant) : String :=
  String.ofList (yearText i.year ++ '-' :: (pad 2 i.month ++ '-' :: (pad 2 i.day ++ 'T' :: (pad 2 i.hour ++ ':' ::
    (pad 2 i.minute ++ ':' :: (pad 2 (i.second + i.nano / 1000000000) ++ (fraction (i.nano % 1000000000) ++ offset)))))))

example : (ofCount 63876470399500000000).text = "2024-02-29T23:59:59.500+00:00" := by decide

section Texts

variable {m n : Nat}

theorem precision_cases (nano : Nat) : (nano = 0 ∧ precision nano = 0) ∨ (nano ≠ 0 ∧ nano % 1000000 = 0 ∧ precision nano = 3) ∨
    (nano % 1000000 ≠ 0 ∧ nano % 1000 = 0 ∧ precision nano = 6) ∨ (nano % 1000 ≠ 0 ∧ precision nano = 9) := by
  unfold precision
  split_ifs <;> omega

theorem precision_dvd (nano : Nat) : 10 ^ (9 - precision nano) ∣ nano := by
  rcases precision_cases nano with ⟨rfl, _⟩ | ⟨_, whole, three⟩ | ⟨_, whole, six⟩ | ⟨_, nine⟩
  · exact Nat.dvd_zero _
  · rw [three]
    exact Nat.dvd_of_mod_eq_zero whole
  · rw [six]
    exact Nat.dvd_of_mod_eq_zero whole
  · rw [nine]
    exact Nat.one_dvd nano

theorem precision_le (nano : Nat) : precision nano ≤ 9 := by
  rcases precision_cases nano with ⟨_, k⟩ | ⟨_, _, k⟩ | ⟨_, _, k⟩ | ⟨_, k⟩ <;> omega

theorem precision_pos {nano : Nat} (some_ : nano ≠ 0) : 0 < precision nano := by
  rcases precision_cases nano with ⟨zero, _⟩ | ⟨_, _, k⟩ | ⟨_, _, k⟩ | ⟨_, k⟩ <;> omega

theorem fraction_zero : fraction 0 = [] := rfl

theorem fraction_of {nano : Nat} (some_ : nano ≠ 0) :
    fraction nano = '.' :: pad (precision nano) (nano / 10 ^ (9 - precision nano)) := if_neg some_

theorem length_fraction (nano : Nat) : (fraction nano).length = if nano = 0 then 0 else precision nano + 1 := by
  unfold fraction
  split
  · rfl
  · rw [List.length_cons, length_pad]

theorem digits_lt {nano : Nat} (below : nano < 10 ^ 9) : nano / 10 ^ (9 - precision nano) < 10 ^ precision nano := by
  apply Nat.div_lt_of_lt_mul
  rw [← Nat.pow_add, Nat.sub_add_cancel (precision_le nano)]
  exact below

/-- The offset stands before any digit. -/
theorem offset_pad {l : Nat} (more : 0 < l) (n : Nat) (rest : List Char) : charsLe offset (pad l n ++ rest) = true := by
  obtain ⟨l, rfl⟩ : ∃ before, l = before + 1 := ⟨l - 1, by omega⟩
  have apart : '+' ≠ digit (n / 10 ^ l) := by
    intro same
    have code := congrArg Char.toNat same
    rw [digit_toNat] at code
    have plus : '+'.toNat = 43 := rfl
    omega
  rw [offset, pad, List.cons_append, charsLe, if_neg apart, digit_toNat, decide_eq_true_eq]
  have plus : '+'.toNat = 43 := rfl
  omega

/-- A fraction of whole units against a finer one, of which `q` are a unit. -/
theorem charsLe_finer {j l q : Nat} (more : 0 < l) (unit : 0 < q) (whole : q * 10 ^ l ∣ m)
    (little : m / (q * 10 ^ l) < 10 ^ j) (small : n / (q * 10 ^ l) < 10 ^ j) :
    charsLe (pad j (m / (q * 10 ^ l)) ++ offset) (pad (j + l) (n / q) ++ offset) = decide (m ≤ n) := by
  have unit' : 0 < q * 10 ^ l := Nat.mul_pos unit (Nat.pow_pos (by decide))
  rw [pad_add, List.append_assoc, Nat.div_div_eq_div_mul, charsLe_pad_of_lt little small]
  obtain ⟨count, rfl⟩ := whole
  rw [Nat.mul_div_cancel_left count unit']
  have reach : q * 10 ^ l * count ≤ n ↔ count ≤ n / (q * 10 ^ l) := by
    rw [Nat.le_div_iff_mul_le unit', Nat.mul_comm]
  split
  · next same =>
    rw [offset_pad more, eq_comm, decide_eq_true_eq]
    exact reach.2 (Nat.le_of_eq same)
  · next apart =>
    rw [decide_eq_decide, reach]
    omega

theorem charsLe_fraction_of (little : m < 10 ^ 9) (small : n < 10 ^ 9) (coarser : precision m ≤ precision n) :
    charsLe (fraction m ++ offset) (fraction n ++ offset) = decide (m ≤ n) := by
  by_cases none_ : m = 0
  · subst none_
    rw [decide_eq_true (Nat.zero_le n)]
    by_cases zero : n = 0
    · rw [zero]
      exact charsLe_refl _
    · rw [fraction_zero, fraction_of zero]
      rfl
  · have some_ : n ≠ 0 := by
      rintro rfl
      have := precision_pos none_
      exact absurd coarser (Nat.not_le.2 this)
    rw [fraction_of none_, fraction_of some_, List.cons_append, List.cons_append, charsLe_cons]
    by_cases same : precision m = precision n
    · have whole := precision_dvd m
      have units := precision_dvd n
      have few := digits_lt little
      have many := digits_lt small
      rw [same] at whole few ⊢
      generalize 10 ^ (9 - precision n) = q at *
      obtain ⟨count, rfl⟩ := whole
      obtain ⟨number, rfl⟩ := units
      have unit : 0 < q := Nat.pos_of_ne_zero (fun zero => none_ (by rw [zero, Nat.zero_mul]))
      rw [Nat.mul_div_cancel_left _ unit] at few many ⊢
      rw [Nat.mul_div_cancel_left _ unit, charsLe_pad_of_lt few many]
      split
      · next equal =>
        rw [charsLe_refl, equal]
        exact (decide_eq_true (Nat.le_refl _)).symm
      · next apart =>
        rw [decide_eq_decide, Nat.mul_le_mul_left_iff unit]
        omega
    · obtain ⟨l, longer⟩ : ∃ l, precision n = precision m + l := ⟨precision n - precision m, by omega⟩
      have units : 10 ^ (9 - precision m) = 10 ^ (9 - precision n) * 10 ^ l := by
        have := precision_le n
        rw [← Nat.pow_add]
        congr 1
        omega
      have few := digits_lt little
      have whole := precision_dvd m
      have many : n / 10 ^ (9 - precision m) < 10 ^ precision m := by
        apply Nat.div_lt_of_lt_mul
        rw [← Nat.pow_add, Nat.sub_add_cancel (precision_le m)]
        exact small
      rw [units] at few whole many ⊢
      rw [longer] at few whole many ⊢
      exact charsLe_finer (by omega) (Nat.pow_pos (by decide)) whole few many

/-- Whatever the digits of two fractions, they are ordered as the nanoseconds are. -/
theorem charsLe_fraction (little : m < 10 ^ 9) (small : n < 10 ^ 9) :
    charsLe (fraction m ++ offset) (fraction n ++ offset) = decide (m ≤ n) := by
  rcases Nat.lt_or_ge (precision n) (precision m) with finer | coarser
  · have some_ : m ≠ 0 := by
      rintro rfl
      exact absurd finer (Nat.not_lt_zero _)
    have apart : fraction m ++ offset ≠ fraction n ++ offset := by
      intro same
      have long := congrArg List.length (List.append_cancel_right same)
      rw [length_fraction, length_fraction, if_neg some_] at long
      split at long <;> omega
    have different : m ≠ n := by
      rintro rfl
      exact apart rfl
    rw [charsLe_swap apart, charsLe_fraction_of small little (Nat.le_of_lt finer), ← decide_not, decide_eq_decide]
    omega
  · exact charsLe_fraction_of little small coarser

/-- What is shown of an instant fits its places. -/
structure Instant.Fits (i : Instant) : Prop where
  month : i.month < 10 ^ 2
  day : i.day < 10 ^ 2
  hour : i.hour < 10 ^ 2
  minute : i.minute < 10 ^ 2
  second : i.second + i.nano / 1000000000 < 10 ^ 2
  nano : i.nano % 1000000000 < 10 ^ 9

theorem Instant.fits (i : Instant) : i.Fits := by
  obtain ⟨_, last⟩ := i.months
  have hours := i.hours
  have minutes := i.minutes
  have seconds := i.seconds
  have nanos := i.nanos
  have days : i.day ≤ 31 := by
    have within := i.days.2
    unfold daysIn at within
    split_ifs at within <;> omega
  constructor <;> omega

/-- The texts of two instants are ordered field by field. -/
theorem le_fields {earlier later : Instant} (first : earlier.year ≤ 9999) (second : later.year ≤ 9999) :
    le earlier.text later.text =
      if earlier.year = later.year then
        if earlier.month = later.month then
          if earlier.day = later.day then
            if earlier.hour = later.hour then
              if earlier.minute = later.minute then
                if earlier.second + earlier.nano / 1000000000 = later.second + later.nano / 1000000000 then
                  decide (earlier.nano % 1000000000 ≤ later.nano % 1000000000)
                else decide (earlier.second + earlier.nano / 1000000000 < later.second + later.nano / 1000000000)
              else decide (earlier.minute < later.minute)
            else decide (earlier.hour < later.hour)
          else decide (earlier.day < later.day)
        else decide (earlier.month < later.month)
      else decide (earlier.year < later.year) := by
  have few := earlier.fits
  have many := later.fits
  unfold le Instant.text yearText
  rw [if_pos first, if_pos second, String.toList_ofList, String.toList_ofList, charsLe_pad_of_lt (by omega) (by omega),
    charsLe_cons, charsLe_pad_of_lt few.month many.month, charsLe_cons, charsLe_pad_of_lt few.day many.day, charsLe_cons,
    charsLe_pad_of_lt few.hour many.hour, charsLe_cons, charsLe_pad_of_lt few.minute many.minute, charsLe_cons,
    charsLe_pad_of_lt few.second many.second, charsLe_fraction few.nano many.nano]

/-- The texts of two instants are ordered as the instants are. -/
theorem le_text {earlier later : Instant} (first : earlier.year ≤ 9999) (second : later.year ≤ 9999) :
    le earlier.text later.text = decide (earlier.upTo later) := by
  rw [le_fields first second]
  have days : earlier.sooner later ∨ later.sooner earlier ∨
      (earlier.year = later.year ∧ earlier.month = later.month ∧ earlier.day = later.day) := by
    unfold Instant.sooner
    omega
  rcases days with before | after | ⟨year, month, day⟩
  · rw [decide_eq_true (Instant.upTo_of_day (Instant.dayNumber_lt before)).1]
    unfold Instant.sooner at before
    split_ifs <;> first | omega | (rw [decide_eq_true_eq]; omega)
  · rw [decide_eq_false (Instant.upTo_of_day (Instant.dayNumber_lt after)).2]
    unfold Instant.sooner at after
    split_ifs <;> first | omega | (rw [decide_eq_false_iff_not]; omega)
  · have same : earlier.dayNumber = later.dayNumber := by
      unfold Instant.dayNumber
      rw [year, month, day]
    have few := earlier.nanos
    have many := later.nanos
    have hours := And.intro earlier.hours later.hours
    have minutes := And.intro earlier.minutes later.minutes
    have seconds := And.intro earlier.seconds later.seconds
    have order : decide (earlier.upTo later) = decide
        ((earlier.hour * 60 + earlier.minute) * 60 + earlier.second < (later.hour * 60 + later.minute) * 60 + later.second ∨
          (earlier.hour * 60 + earlier.minute) * 60 + earlier.second = (later.hour * 60 + later.minute) * 60 + later.second ∧
            earlier.nano ≤ later.nano) := by
      rw [decide_eq_decide]
      unfold Instant.upTo Instant.elapsed
      omega
    rw [if_pos year, if_pos month, if_pos day, order]
    split_ifs <;> rw [decide_eq_decide] <;> omega

end Texts

/-! Reading the texts back. -/

/-- So many digits, and what follows them. -/
def readDigits : Nat → Nat → List Char → Option (Nat × List Char)
  | 0, total, rest => some (total, rest)
  | _ + 1, _, [] => none
  | k + 1, total, c :: rest => if c.isDigit then readDigits k (total * 10 + (c.toNat - 48)) rest else none

/-- A field of two digits after its mark. -/
def readField (mark : Char) : List Char → Option (Nat × List Char)
  | c :: rest => if c = mark then readDigits 2 0 rest else none
  | [] => none

/-- The digits a text begins with: their number and their value. -/
def readRun : Nat → Nat → List Char → Nat × Nat × List Char
  | long, total, c :: rest => if c.isDigit then readRun (long + 1) (total * 10 + (c.toNat - 48)) rest else (long, total, c :: rest)
  | long, total, [] => (long, total, [])

/-- The nanoseconds of a fraction of at most nine digits. -/
def readFraction : List Char → Option (Nat × List Char)
  | '.' :: rest =>
    let (long, total, after) := readRun 0 0 rest
    if 0 < long ∧ long ≤ 9 then some (total * 10 ^ (9 - long), after) else none
  | rest => some (0, rest)

/-- The instant with these fields, if there is one; a sixtieth second is a leap second. -/
def instant? (year month day hour minute second nano : Nat) : Option Instant :=
  let leap := if second = 60 then 1 else 0
  if valid : (1 ≤ month ∧ month ≤ 12) ∧ (1 ≤ day ∧ day ≤ daysIn year month) ∧ hour < 24 ∧ minute < 60 ∧ second ≤ 60 ∧
      nano < 1000000000 then
    some { year, month, day, hour, minute
           second := second - leap
           nano := nano + leap * 1000000000
           months := valid.1
           days := valid.2.1
           hours := valid.2.2.1
           minutes := valid.2.2.2.1
           seconds := by
            have := valid.2.2.2.2
            show second - (if second = 60 then 1 else 0) < 60
            split <;> omega
           nanos := by
            have := valid.2.2.2.2
            show nano + (if second = 60 then 1 else 0) * 1000000000 < 1000000000 ∨
              second - (if second = 60 then 1 else 0) = 59 ∧ nano + (if second = 60 then 1 else 0) * 1000000000 < 2000000000
            split <;> omega }
  else none

/-- The instant of a year whose other fields follow. -/
def readRest (year : Nat) (rest : List Char) : Option Instant := do
  let (month, rest) ← readField '-' rest
  let (day, rest) ← readField '-' rest
  let (hour, rest) ← readField 'T' rest
  let (minute, rest) ← readField ':' rest
  let (second, rest) ← readField ':' rest
  let (nano, rest) ← readFraction rest
  if rest = offset then instant? year month day hour minute second nano else none

/-- A text in universal time after RFC 3339, its year in four digits. -/
def read (text : String) : Option Instant := do
  let (year, rest) ← readDigits 4 0 text.toList
  readRest year rest

/-- A text whose year may have more digits behind a sign. -/
def readSigned (text : String) : Option Instant :=
  match text.toList with
  | '+' :: rest =>
    let (_, year, rest) := readRun 0 0 rest
    readRest year rest
  | _ => read text

theorem digit_isDigit (n : Nat) : (digit n).isDigit = true := by
  have all : ∀ d < 10, (Char.ofNat (48 + d)).isDigit = true := by decide
  exact all _ (Nat.mod_lt n (by decide))

theorem readDigits_pad (k total n : Nat) (rest : List Char) :
    readDigits k total (pad k n ++ rest) = some (total * 10 ^ k + n % 10 ^ k, rest) := by
  induction k generalizing total with
  | zero => simp [readDigits, pad, Nat.mod_one]
  | succ k ih =>
    rw [pad, List.cons_append, readDigits, if_pos (digit_isDigit _), ih, digit_toNat, Nat.mod_pow_succ,
      Nat.add_sub_cancel_left]
    congr 2
    ring

theorem readDigits_of_lt {k n : Nat} (small : n < 10 ^ k) (rest : List Char) :
    readDigits k 0 (pad k n ++ rest) = some (n, rest) := by
  rw [readDigits_pad, Nat.zero_mul, Nat.zero_add, Nat.mod_eq_of_lt small]

theorem readField_pad (mark : Char) {n : Nat} (small : n < 10 ^ 2) (rest : List Char) :
    readField mark (mark :: (pad 2 n ++ rest)) = some (n, rest) := by
  rw [readField, if_pos rfl, readDigits_of_lt small]

theorem readRun_pad (k long total n : Nat) {rest : List Char} (ends : ∀ c ∈ rest.head?, c.isDigit = false) :
    readRun long total (pad k n ++ rest) = (long + k, total * 10 ^ k + n % 10 ^ k, rest) := by
  induction k generalizing long total with
  | zero =>
    rw [pad, List.nil_append, Nat.pow_zero, Nat.mod_one, Nat.mul_one, Nat.add_zero, Nat.add_zero]
    cases rest with
    | nil => rfl
    | cons c rest =>
      have stop := ends c rfl
      rw [readRun, stop]
      rfl
  | succ k ih =>
    rw [pad, List.cons_append, readRun, if_pos (digit_isDigit _), ih, digit_toNat, Nat.mod_pow_succ,
      Nat.add_sub_cancel_left]
    have value : (total * 10 + n / 10 ^ k % 10) * 10 ^ k + n % 10 ^ k =
        total * 10 ^ (k + 1) + (n % 10 ^ k + 10 ^ k * (n / 10 ^ k % 10)) := by ring
    rw [value, Nat.add_assoc long 1 k, Nat.add_comm 1 k]

theorem readFraction_fraction {nano : Nat} (below : nano < 10 ^ 9) :
    readFraction (fraction nano ++ offset) = some (nano, offset) := by
  by_cases none_ : nano = 0
  · rw [none_]
    rfl
  · have shown : nano / 10 ^ (9 - precision nano) % 10 ^ precision nano = nano / 10 ^ (9 - precision nano) :=
      Nat.mod_eq_of_lt (digits_lt below)
    have run : readRun 0 0 (pad (precision nano) (nano / 10 ^ (9 - precision nano)) ++ offset) =
        (precision nano, nano / 10 ^ (9 - precision nano), offset) := by
      rw [readRun_pad _ _ _ _ (by intro c first; cases first; rfl), Nat.zero_add, Nat.zero_mul, Nat.zero_add, shown]
    rw [fraction_of none_, List.cons_append, readFraction, run]
    simp only
    rw [if_pos ⟨precision_pos none_, precision_le nano⟩, Nat.div_mul_cancel (precision_dvd nano)]

/-- The fields of an instant, as they are shown, are those of the instant. -/
theorem instant?_shown (i : Instant) : instant? i.year i.month i.day i.hour i.minute (i.second + i.nano / 1000000000)
    (i.nano % 1000000000) = some i := by
  have seconds := i.seconds
  have nanos := i.nanos
  have valid : (1 ≤ i.month ∧ i.month ≤ 12) ∧ (1 ≤ i.day ∧ i.day ≤ daysIn i.year i.month) ∧ i.hour < 24 ∧ i.minute < 60 ∧
      i.second + i.nano / 1000000000 ≤ 60 ∧ i.nano % 1000000000 < 1000000000 :=
    ⟨i.months, i.days, i.hours, i.minutes, by omega, by omega⟩
  rw [instant?, dif_pos valid]
  congr 1
  ext
  all_goals simp only
  · split <;> omega
  · split <;> omega

/-- What stands behind the year of a text. -/
def Instant.restText (i : Instant) : List Char :=
  '-' :: (pad 2 i.month ++ '-' :: (pad 2 i.day ++ 'T' :: (pad 2 i.hour ++ ':' :: (pad 2 i.minute ++ ':' ::
    (pad 2 (i.second + i.nano / 1000000000) ++ (fraction (i.nano % 1000000000) ++ offset))))))

theorem text_toList (i : Instant) : i.text.toList = yearText i.year ++ i.restText := String.toList_ofList

theorem readRest_restText (i : Instant) : readRest i.year i.restText = some i := by
  have fits := i.fits
  unfold readRest Instant.restText
  simp only [bind, Option.bind, readField_pad _ fits.month, readField_pad _ fits.day, readField_pad _ fits.hour,
    readField_pad _ fits.minute, readField_pad _ fits.second, readFraction_fraction fits.nano, if_true]
  exact instant?_shown i

/-- The text of an instant is read back, its year having four digits. -/
theorem read_text {i : Instant} (year : i.year ≤ 9999) : read i.text = some i := by
  rw [read, text_toList, yearText, if_pos year, readDigits_of_lt (show i.year < 10 ^ 4 by omega)]
  exact readRest_restText i

/-- A year with a sign is not read. -/
theorem read_late {i : Instant} (year : 9999 < i.year) : read i.text = none := by
  rw [read, text_toList, yearText, if_neg (Nat.not_le.2 year)]
  rfl

theorem readRun_digits {digits rest : List Char} (all : ∀ c ∈ digits, c.isDigit = true) (ends : ∀ c ∈ rest.head?, c.isDigit = false)
    (long total : Nat) : readRun long total (digits ++ rest) = (long + digits.length, Nat.ofDigitChars 10 digits total, rest) := by
  induction digits generalizing long total with
  | nil =>
    cases rest with
    | nil => rfl
    | cons c rest =>
      have stop := ends c rfl
      rw [List.nil_append, readRun, stop]
      rfl
  | cons c digits ih =>
    rw [List.cons_append, readRun, if_pos (all c List.mem_cons_self), ih (fun d mem => all d (List.mem_cons_of_mem c mem)),
      Nat.ofDigitChars_cons, List.length_cons, Nat.mul_comm total 10]
    congr 1
    omega

/-- The text of any instant is read back with the sign of its year. -/
theorem readSigned_text (i : Instant) : readSigned i.text = some i := by
  by_cases year : i.year ≤ 9999
  · have four := text_toList i
    rw [yearText, if_pos year, pad, List.cons_append] at four
    have unsigned : digit (i.year / 10 ^ 3) ≠ '+' := by
      intro same
      have code := congrArg Char.toNat same
      rw [digit_toNat] at code
      have plus : '+'.toNat = 43 := rfl
      omega
    unfold readSigned
    split
    · next rest shape =>
      rw [four] at shape
      exact absurd (List.cons.inj shape).1 unsigned
    · exact read_text year
  · have digits : ∀ c ∈ Nat.toDigits 10 i.year, c.isDigit = true :=
      fun c mem => Nat.isDigit_of_mem_toDigits (by decide) (by decide) mem
    have run := @readRun_digits _ i.restText digits (by intro c first; cases first; rfl) 0 0
    rw [Nat.ofDigitChars_ten_toDigits] at run
    unfold readSigned
    rw [text_toList, yearText, if_neg year, List.cons_append]
    simp only [run]
    exact readRest_restText i

/-- The text of the time at which so many nanoseconds have passed. -/
def stamp (count : Nat) : String := (ofCount count).text

end ToolArtifactRegistry.Library.Instants
