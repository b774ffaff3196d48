import ToolArtifactRegistry.Library.Replace

/-! Texts in which a character can be spelled by an escape: how such a text is read, and when replacing in the
text is replacing in what is read. -/
namespace ToolArtifactRegistry.Library.Spelling

open Replace

def backslash : Char := Char.ofNat 92

/-- The escapes of a notation. -/
structure Escapes where
  reads : List Char → Option Char
  starts : ∀ spelling c, reads spelling = some c → spelling.head? = some backslash
  /-- No escape begins with another. -/
  alone : ∀ left right, (reads left).isSome = true → (reads right).isSome = true → left <+: right → left = right

variable {e : Escapes}

/-- The spellings of a character. -/
def Escapes.Mark (e : Escapes) (spelling : List Char) (c : Char) : Prop :=
  (c ≠ backslash ∧ spelling = [c]) ∨ e.reads spelling = some c

/-- How a text is read, spelling by spelling. -/
inductive Spells (e : Escapes) : List Char → List Char → Prop
  | nil : Spells e [] []
  | mark {spelling text reading : List Char} {c : Char} (mark : e.Mark spelling c) (rest : Spells e text reading) :
      Spells e (spelling ++ text) (c :: reading)

theorem Escapes.Mark.head {spelling : List Char} {c : Char} (mark : e.Mark spelling c) :
    ∃ d rest, spelling = d :: rest ∧ (d ≠ backslash → rest = [] ∧ c = d) := by
  rcases mark with ⟨_, same⟩ | read
  · exact ⟨c, [], same, fun _ => ⟨rfl, rfl⟩⟩
  · cases spelling with
    | nil => cases e.starts _ _ read
    | cons d rest => exact ⟨d, rest, rfl, fun other => absurd (Option.some.inj (e.starts _ _ read)) other⟩

/-- Of two spellings that agree neither is longer. -/
theorem Escapes.Mark.unique {left right : List Char} {c d : Char} (first : e.Mark left c) (second : e.Mark right d)
    (agree : Agree left right) : left = right ∧ c = d := by
  have backslashed : ∀ {spelling : List Char} {c : Char}, e.reads spelling = some c → ∃ rest, spelling = backslash :: rest := by
    intro spelling c read
    cases spelling with
    | nil => cases e.starts _ _ read
    | cons a rest => exact ⟨rest, by rw [Option.some.inj (e.starts _ _ read)]⟩
  rcases first with ⟨other, rfl⟩ | read
  · rcases second with ⟨_, rfl⟩ | read'
    · have same := agree.head
      exact ⟨by rw [same], same⟩
    · obtain ⟨rest, rfl⟩ := backslashed read'
      exact absurd agree.head other
  · rcases second with ⟨other, rfl⟩ | read'
    · obtain ⟨rest, rfl⟩ := backslashed read
      exact absurd agree.head.symm other
    · have same : left = right := by
        rcases agree with starts | starts
        · exact e.alone left right (by rw [read]; rfl) (by rw [read']; rfl) starts
        · exact (e.alone right left (by rw [read']; rfl) (by rw [read]; rfl) starts).symm
      subst same
      rw [read] at read'
      exact ⟨rfl, Option.some.inj read'⟩

namespace Spells

theorem append {left right first second : List Char} (before : Spells e left first) (after : Spells e right second) :
    Spells e (left ++ right) (first ++ second) := by
  induction before with
  | nil => exact after
  | mark mark _ ih =>
    rw [List.append_assoc]
    exact .mark mark ih

theorem cons_inv {text reading : List Char} {c : Char} (spelled : Spells e text (c :: reading)) :
    ∃ spelling rest, e.Mark spelling c ∧ text = spelling ++ rest ∧ Spells e rest reading := by
  cases spelled with
  | mark mark rest => exact ⟨_, _, mark, rfl, rest⟩

theorem nil_inv {text : List Char} (spelled : Spells e text []) : text = [] := by
  cases spelled with
  | nil => rfl

theorem of_nil {text reading : List Char} (spelled : Spells e text reading) (empty : text = []) : reading = [] := by
  cases spelled with
  | nil => rfl
  | mark mark _ =>
    obtain ⟨d, rest, rfl, _⟩ := mark.head
    cases empty

/-- A text is cut where its reading is. -/
theorem split {text first second : List Char} (spelled : Spells e text (first ++ second)) :
    ∃ before after, text = before ++ after ∧ Spells e before first ∧ Spells e after second := by
  induction first generalizing text with
  | nil => exact ⟨[], text, rfl, .nil, spelled⟩
  | cons c first ih =>
    obtain ⟨spelling, rest, mark, same, spelled⟩ := spelled.cons_inv
    obtain ⟨before, after, same', one, two⟩ := ih spelled
    exact ⟨spelling ++ before, after, by rw [same, same', List.append_assoc], .mark mark one, two⟩

/-- What follows a spelled part of a text is spelled on its own. -/
theorem cut {left right first reading : List Char} (before : Spells e left first) (spelled : Spells e (left ++ right) reading) :
    ∃ second, reading = first ++ second ∧ Spells e right second := by
  induction before generalizing reading with
  | nil => exact ⟨reading, rfl, spelled⟩
  | @mark spelling text _ c mark _ ih =>
    cases reading with
    | nil =>
      obtain ⟨d, rest, same, _⟩ := mark.head
      rw [same] at spelled
      cases spelled.nil_inv
    | cons d reading =>
      obtain ⟨other, rest, mark', same, spelled'⟩ := spelled.cons_inv
      rw [List.append_assoc] at same
      obtain ⟨rfl, rfl⟩ := mark.unique mark' (agree_of_append same)
      rw [← List.append_cancel_left same] at spelled'
      obtain ⟨second, same, after⟩ := ih spelled'
      exact ⟨second, by rw [same]; rfl, after⟩

theorem unique {text first second : List Char} (one : Spells e text first) (two : Spells e text second) : first = second := by
  rw [← List.append_nil text] at two
  obtain ⟨rest, same, spelled⟩ := one.cut two
  rw [same, spelled.of_nil rfl, List.append_nil]

theorem plain {word : List Char} (free : backslash ∉ word) : Spells e word word := by
  induction word with
  | nil => exact .nil
  | cons c word ih =>
    rw [List.mem_cons, not_or] at free
    exact @mark e [c] word word c (Or.inl ⟨fun same => free.1 same.symm, rfl⟩) (ih free.2)

/-- A place in a text stands between two spellings or inside an escape. -/
theorem place {text reading : List Char} (spelled : Spells e text reading) (before after : List Char) (same : text = before ++ after) :
    (∃ first second, reading = first ++ second ∧ Spells e before first ∧ Spells e after second) ∨
      ∃ spelling c n, e.reads spelling = some c ∧ n < spelling.length ∧ spelling.drop n <+: after := by
  induction spelled generalizing before with
  | nil =>
    obtain ⟨rfl, rfl⟩ := List.append_eq_nil_iff.mp same.symm
    exact Or.inl ⟨[], [], rfl, .nil, .nil⟩
  | @mark spelling text reading c mark rest ih =>
    by_cases inside : before.length < spelling.length
    · cases before with
      | nil =>
        rw [List.nil_append] at same
        exact Or.inl ⟨[], c :: reading, rfl, .nil, same ▸ .mark mark rest⟩
      | cons d before =>
        rcases mark with ⟨_, one⟩ | read
        · rw [one, List.length_cons, List.length_cons, List.length_nil] at inside
          omega
        · refine Or.inr ⟨spelling, c, (d :: before).length, read, inside, text, ?_⟩
          have cut := congrArg (List.drop (d :: before).length) same
          rwa [List.drop_append_of_le_length (Nat.le_of_lt inside), List.drop_left] at cut
    · have cut := congrArg (List.drop spelling.length) same
      rw [List.drop_left, List.drop_append_of_le_length (by omega)] at cut
      have start : before.take spelling.length = spelling := by
        have begins := congrArg (List.take spelling.length) same
        rwa [List.take_left, List.take_append_of_le_length (by omega), eq_comm] at begins
      rcases ih (before.drop spelling.length) cut with ⟨first, second, same', one, two⟩ | straddled
      · refine Or.inl ⟨c :: first, second, by rw [same']; rfl, ?_, two⟩
        rw [← List.take_append_drop spelling.length before, start]
        exact .mark mark one
      · exact Or.inr straddled

/-- Of two parts a text begins with and that are read alike neither is longer. -/
theorem same {left right more rest reading : List Char} (one : Spells e left reading) (two : Spells e right reading)
    (whole : left ++ more = right ++ rest) : left = right := by
  induction one generalizing right with
  | nil => exact two.nil_inv.symm
  | mark mark _ ih =>
    obtain ⟨other, tail, mark', rfl, rest'⟩ := two.cons_inv
    rw [List.append_assoc, List.append_assoc] at whole
    obtain ⟨rfl, _⟩ := mark.unique mark' (agree_of_append whole)
    rw [ih rest' (List.append_cancel_left whole)]

end Spells

section Notations

def hexValue (c : Char) : Option Nat :=
  if '0' ≤ c ∧ c ≤ '9' then some (c.toNat - 48)
  else if 'a' ≤ c ∧ c ≤ 'f' then some (c.toNat - 87)
  else if 'A' ≤ c ∧ c ≤ 'F' then some (c.toNat - 55)
  else none

def hexNumber : List Char → Option Nat
  | [] => some 0
  | c :: rest => do
    let value ← hexValue c
    let number ← hexNumber rest
    return value * 16 ^ rest.length + number

/-- A code point that is a character. -/
def scalar (n : Nat) : Option Char := if n < 0xD800 ∨ (0xDFFF < n ∧ n < 0x110000) then some (Char.ofNat n) else none

/-- The character of a surrogate pair. -/
def paired (high low : Nat) : Option Char :=
  if 0xD800 ≤ high ∧ high < 0xDC00 ∧ 0xDC00 ≤ low ∧ low < 0xE000 then
    some (Char.ofNat (0x10000 + (high - 0xD800) * 0x400 + (low - 0xDC00)))
  else none

/-- What the escapes of control characters stand for. -/
def control (letter : Char) : Option Char :=
  match letter with
  | 'b' => some (Char.ofNat 8)
  | 't' => some (Char.ofNat 9)
  | 'n' => some (Char.ofNat 10)
  | 'f' => some (Char.ofNat 12)
  | 'r' => some (Char.ofNat 13)
  | _ => none

/-- A letter behind the backslash, or a letter with what belongs to it. -/
def readEscape (letters : Char → Option Char) (numbered : Char → List Char → Option Char) (spelling : List Char) : Option Char :=
  match spelling with
  | first :: letter :: more =>
    if first = backslash then (if more = [] then letters letter else numbered letter more) else none
  | _ => none

/-- The escapes of a notation whose letters stand alone or before digits. -/
def Escapes.ofLetters (letters : Char → Option Char) (numbered : Char → List Char → Option Char)
    (either : ∀ letter digits, (letters letter).isSome = true → numbered letter digits = none)
    (alone : ∀ letter left right, (numbered letter left).isSome = true → (numbered letter right).isSome = true →
      left <+: right → left = right) : Escapes where
  reads := readEscape letters numbered
  starts := by
    intro spelling c read
    unfold readEscape at read
    split at read
    · next first letter more =>
      by_cases same : first = Spelling.backslash
      · rw [same]
        rfl
      · rw [if_neg same] at read
        cases read
    · cases read
  alone := by
    intro left right one two starts
    unfold readEscape at one two
    split at one
    · next first letter more =>
      split at two
      · next first' letter' more' =>
        obtain ⟨rfl, behind⟩ := List.cons_prefix_cons.mp starts
        obtain ⟨rfl, rest⟩ := List.cons_prefix_cons.mp behind
        by_cases same : first = Spelling.backslash
        · rw [if_pos same] at one two
          by_cases short : more = []
          · rw [if_pos short] at one
            by_cases short' : more' = []
            · rw [short, short']
            · rw [if_neg short', either letter more' one] at two
              cases two
          · rw [if_neg short] at one
            by_cases short' : more' = []
            · rw [short'] at rest
              exact absurd (List.prefix_nil.mp rest) short
            · rw [if_neg short'] at two
              rw [alone letter more more' one two rest]
        · rw [if_neg same] at one
          cases one
      · cases two
    · cases one

def jsonLetter (letter : Char) : Option Char :=
  if letter = '"' ∨ letter = backslash ∨ letter = '/' then some letter else control letter

/-- Four digits, or two such numbers that are a surrogate pair. -/
def jsonNumbered (letter : Char) (digits : List Char) : Option Char :=
  if letter ≠ 'u' then none
  else if digits.length = 4 then hexNumber digits >>= scalar
  else if digits.length = 10 ∧ (digits.drop 4).take 2 = [backslash, 'u'] then do
    let high ← hexNumber (digits.take 4)
    let low ← hexNumber (digits.drop 6)
    paired high low
  else none

theorem jsonNumbered_isSome {letter : Char} {digits : List Char} (read : (jsonNumbered letter digits).isSome = true) :
    (digits.length = 4 ∧ ∃ n, hexNumber digits = some n ∧ (scalar n).isSome = true) ∨
      (digits.length = 10 ∧ ∃ high, hexNumber (digits.take 4) = some high ∧ 0xD800 ≤ high ∧ high < 0xDC00) := by
  unfold jsonNumbered at read
  split at read
  · cases read
  · split at read
    · next four =>
      cases number : hexNumber digits with
      | none =>
        rw [number] at read
        cases read
      | some n =>
        rw [number] at read
        exact Or.inl ⟨four, n, rfl, read⟩
    · split at read
      · next ten =>
        cases number : hexNumber (digits.take 4) with
        | none =>
          rw [number] at read
          cases read
        | some high =>
          cases number' : hexNumber (digits.drop 6) with
          | none =>
            rw [number, number'] at read
            cases read
          | some low =>
            rw [number, number'] at read
            have pair : (paired high low).isSome = true := read
            unfold paired at pair
            split at pair
            · next inside => exact Or.inr ⟨ten.1, high, rfl, inside.1, inside.2.1⟩
            · cases pair
      · cases read

/-- The escapes of a JSON string. -/
def Escapes.json : Escapes := Escapes.ofLetters jsonLetter jsonNumbered
  (by
    intro letter digits read
    unfold jsonNumbered
    refine if_pos (fun same => ?_)
    rw [same] at read
    revert read
    decide)
  (by
    intro letter left right one two starts
    rcases jsonNumbered_isSome one with ⟨four, n, number, whole⟩ | ⟨ten, _⟩
    · rcases jsonNumbered_isSome two with ⟨four', _⟩ | ⟨_, high, number', from_, below⟩
      · exact starts.eq_of_length (four.trans four'.symm)
      · -- the first half of a pair is no character
        rw [List.prefix_iff_eq_take.mp starts, four, number'] at number
        cases number
        unfold scalar at whole
        rw [if_neg (by omega)] at whole
        cases whole
    · refine starts.eq_of_length_le ?_
      rcases jsonNumbered_isSome two with ⟨four', _⟩ | ⟨ten', _⟩ <;> omega)

def sparqlLetter (letter : Char) : Option Char :=
  if letter ∈ ("\x22\\_~.-!$&()*+,;=/?#@%".toList ++ [Char.ofNat 39]) then some letter else control letter

def sparqlNumbered (letter : Char) (digits : List Char) : Option Char :=
  if (letter = 'u' ∧ digits.length = 4) ∨ (letter = 'U' ∧ digits.length = 8) then hexNumber digits >>= scalar else none

/-- The escapes of code points, of strings and of local names in SPARQL. -/
def Escapes.sparql : Escapes := Escapes.ofLetters sparqlLetter sparqlNumbered
  (by
    intro letter digits read
    unfold sparqlNumbered
    refine if_neg (fun same => ?_)
    rcases same with ⟨same, _⟩ | ⟨same, _⟩ <;>
    · rw [same] at read
      revert read
      decide)
  (by
    intro letter left right one two starts
    unfold sparqlNumbered at one two
    split at one
    · next first =>
      split at two
      · next second =>
        refine starts.eq_of_length ?_
        rcases first with ⟨same, long⟩ | ⟨same, long⟩
        · rcases second with ⟨_, long'⟩ | ⟨same', _⟩
          · rw [long, long']
          · rw [same] at same'
            exact absurd same' (by decide)
        · rcases second with ⟨same', _⟩ | ⟨_, long'⟩
          · rw [same] at same'
            exact absurd same' (by decide)
          · rw [long, long']
      · cases two
    · cases one)

theorem digits_of_hexNumber {digits : List Char} {n : Nat} (number : hexNumber digits = some n) : ∀ c ∈ digits, hexValue c ≠ none := by
  induction digits generalizing n with
  | nil => exact fun _ mem => nomatch mem
  | cons first rest ih =>
    intro c mem missing
    unfold hexNumber at number
    obtain ⟨value, found, more⟩ := Option.bind_eq_some_iff.mp number
    obtain ⟨tail, found', _⟩ := Option.bind_eq_some_iff.mp more
    rcases List.mem_cons.mp mem with same | there
    · rw [← same, missing] at found
      cases found
    · exact ih found' c there missing

/-- A character that is no digit, no letter of an escape and not the backslash stands in no escape. -/
theorem readEscape_free {letters : Char → Option Char} {numbered : Char → List Char → Option Char} {d : Char}
    (other : d ≠ backslash) (noLetter : letters d = none)
    (noDigit : ∀ letter digits, (numbered letter digits).isSome = true → d ≠ letter ∧ d ∉ digits)
    {spelling : List Char} {c : Char} (read : readEscape letters numbered spelling = some c) : d ∉ spelling := by
  unfold readEscape at read
  split at read
  · next first letter more =>
    split at read
    · next same =>
      split at read
      · next short =>
        rw [short, same, List.mem_cons, List.mem_singleton, not_or]
        refine ⟨other, fun equal => ?_⟩
        rw [← equal, noLetter] at read
        cases read
      · have digits := noDigit letter more (by rw [read]; rfl)
        rw [same, List.mem_cons, List.mem_cons, not_or, not_or]
        exact ⟨other, digits.1, digits.2⟩
    · cases read
  · cases read

theorem json_free {d : Char} (other : d ≠ backslash) (noLetter : jsonLetter d = none) (noU : d ≠ 'u') (noDigit : hexValue d = none)
    {spelling : List Char} {c : Char} (read : Escapes.json.reads spelling = some c) : d ∉ spelling := by
  refine readEscape_free other noLetter (fun letter digits found => ?_) read
  unfold jsonNumbered at found
  split at found
  · cases found
  · next same =>
    refine ⟨fun equal => noU (equal.trans (not_not.mp same)), fun mem => ?_⟩
    split at found
    · cases number : hexNumber digits with
      | none =>
        rw [number] at found
        cases found
      | some n => exact digits_of_hexNumber number d mem noDigit
    · split at found
      · next ten =>
        cases number : hexNumber (digits.take 4) with
        | none =>
          rw [number] at found
          cases found
        | some high =>
          cases number' : hexNumber (digits.drop 6) with
          | none =>
            rw [number, number'] at found
            cases found
          | some low =>
            have parts : digits = digits.take 4 ++ ((digits.drop 4).take 2 ++ digits.drop 6) := by
              have back : digits.drop 6 = (digits.drop 4).drop 2 := by rw [List.drop_drop]
              rw [back, List.take_append_drop, List.take_append_drop]
            rw [parts, List.mem_append, List.mem_append, ten.2] at mem
            rcases mem with front | middle | back
            · exact digits_of_hexNumber number d front noDigit
            · rcases List.mem_cons.mp middle with same' | same'
              · exact other same'
              · exact noU (List.mem_singleton.mp same')
            · exact digits_of_hexNumber number' d back noDigit
      · cases found

theorem sparql_free {d : Char} (other : d ≠ backslash) (noLetter : sparqlLetter d = none) (noU : d ≠ 'u' ∧ d ≠ 'U')
    (noDigit : hexValue d = none) {spelling : List Char} {c : Char} (read : Escapes.sparql.reads spelling = some c) : d ∉ spelling := by
  refine readEscape_free other noLetter (fun letter digits found => ?_) read
  unfold sparqlNumbered at found
  split at found
  · next long =>
    refine ⟨fun equal => ?_, fun mem => ?_⟩
    · rcases long with ⟨same, _⟩ | ⟨same, _⟩
      · exact noU.1 (equal.trans same)
      · exact noU.2 (equal.trans same)
    · cases number : hexNumber digits with
      | none =>
        rw [number] at found
        cases found
      | some n => exact digits_of_hexNumber number d mem noDigit
  · cases found

end Notations

/-- A word that holds no escape, and that none runs into. -/
structure Outside (e : Escapes) (word : List Char) : Prop where
  plain : backslash ∉ word
  apart : ∀ spelling c, e.reads spelling = some c → ¬Within word spelling

/-- A word that begins with a character no escape holds is outside them all. -/
theorem outside_of_head {head : Char} {word : List Char} (plain : backslash ∉ head :: word)
    (foreign : ∀ spelling c, e.reads spelling = some c → head ∉ spelling) : Outside e (head :: word) := by
  refine ⟨plain, fun spelling c read ⟨n, short, agree⟩ => foreign spelling c read ?_⟩
  cases cut : spelling.drop n with
  | nil =>
    have lengths := congrArg List.length cut
    rw [List.length_drop, List.length_nil] at lengths
    omega
  | cons a tail =>
    have same : a = head := by
      rw [cut] at agree
      exact agree.head
    have inside : a ∈ spelling.drop n := by rw [cut]; exact List.mem_cons_self
    exact same ▸ List.mem_of_mem_drop inside

/-- Each pattern that is read is spelled as it stands. -/
def Raw (e : Escapes) (olds : List (List Char)) (text reading : List Char) : Prop :=
  ∀ old ∈ olds, ∀ before after, reading = before ++ (old ++ after) →
    ∃ first second, text = first ++ (old ++ second) ∧ Spells e first before ∧ Spells e second after

theorem Raw.after {olds : List (List Char)} {word text first second : List Char} (raw : Raw e olds (word ++ text) (first ++ second))
    (spelled : Spells e word first) : Raw e olds text second := by
  intro old mem before after same
  obtain ⟨head, tail, whole, one, two⟩ := raw old mem (first ++ before) after (by rw [same, List.append_assoc])
  obtain ⟨start, middle, rfl, spelled', inner⟩ := one.split
  rw [List.append_assoc] at whole
  have begins := spelled.same spelled' whole
  subst begins
  exact ⟨middle, tail, List.append_cancel_left whole, inner, two⟩

theorem Outside.clear {word spelling : List Char} {c : Char} (outside : Outside e word) (read : e.reads spelling = some c) :
    Clear word spelling := by
  refine ⟨outside.apart spelling c read, ?_⟩
  rintro ⟨n, short, _, agree⟩
  cases spelling with
  | nil => cases e.starts _ _ read
  | cons d rest =>
    rw [Option.some.inj (e.starts _ _ read)] at agree
    cases cut : word.drop n with
    | nil =>
      have lengths := congrArg List.length cut
      rw [List.length_drop, List.length_nil] at lengths
      omega
    | cons a tail =>
      have head : a = backslash := by
        rw [cut] at agree
        exact agree.head
      have inside : a ∈ word.drop n := by rw [cut]; exact List.mem_cons_self
      exact outside.plain (head ▸ List.mem_of_mem_drop inside)

/-- What begins a text as it stands begins its reading. -/
theorem Outside.prefix_reading {word text reading : List Char} (outside : Outside e word) (spelled : Spells e text reading)
    (starts : word <+: text) : word <+: reading := by
  obtain ⟨rest, rfl⟩ := starts
  obtain ⟨second, rfl, _⟩ := (Spells.plain outside.plain).cut spelled
  exact List.prefix_append word second

/-- What a text holds as it stands is read there. -/
theorem Outside.infix_reading {word text reading : List Char} (outside : Outside e word)
    (spelled : Spells e text reading) (inside : word <:+: text) : word <:+: reading := by
  obtain ⟨before, after, same⟩ := inside
  rw [List.append_assoc] at same
  rcases spelled.place before (word ++ after) same.symm with ⟨first, second, rfl, _, two⟩ | ⟨spelling, c, n, read, short, starts⟩
  · exact (outside.prefix_reading two (List.prefix_append _ _)).isInfix.trans (List.suffix_append first second).isInfix
  · exact absurd ⟨n, short, List.prefix_or_prefix_of_prefix starts (List.prefix_append word after)⟩ (outside.apart spelling c read)

section Replaced

variable {olds : List (List Char)} {new : List Char}

/-- A replacement goes on behind a spelling that is not where the pattern begins. -/
theorem replace_mark {old spelling text : List Char} {c : Char} (outside : Outside e old) (mark : e.Mark spelling c)
    (miss : ¬old <+: spelling ++ text) : replace old new (spelling ++ text) = spelling ++ replace old new text := by
  rcases mark with ⟨_, rfl⟩ | read
  · exact replace_cons_miss miss
  · exact replace_through (outside.apart spelling c read) text

/-- A replaced text can still be read. -/
theorem Spells.replaced {old text reading : List Char} (some_ : old ≠ []) (outside : Outside e old) (free : backslash ∉ new)
    (spelled : Spells e text reading) : ∃ got, Spells e (replace old new text) got := by
  induction many : text.length using Nat.strong_induction_on generalizing text reading with
  | _ n ih =>
    by_cases starts : old <+: text
    · obtain ⟨rest, rfl⟩ := starts
      obtain ⟨second, _, spelled⟩ := (Spells.plain outside.plain).cut spelled
      have shorter : rest.length < n := by
        have long := List.length_pos_iff.mpr some_
        rw [List.length_append] at many
        omega
      obtain ⟨got, rest'⟩ := ih rest.length shorter spelled rfl
      rw [replace_append_hit some_]
      exact ⟨new ++ got, (Spells.plain free).append rest'⟩
    · cases spelled with
      | nil => exact ⟨[], .nil⟩
      | @mark spelling text _ c mark rest =>
        have shorter : text.length < n := by
          obtain ⟨d, tail, rfl, _⟩ := mark.head
          rw [List.length_append, List.length_cons] at many
          omega
        obtain ⟨got, rest'⟩ := ih text.length shorter rest rfl
        rw [replace_mark outside mark starts]
        exact ⟨c :: got, .mark mark rest'⟩

theorem Spells.replacedAll {text reading : List Char} (some_ : ∀ old ∈ olds, old ≠ []) (outside : ∀ old ∈ olds, Outside e old)
    (free : backslash ∉ new) (spelled : Spells e text reading) : ∃ got, Spells e (replaceAll olds new text) got := by
  induction olds generalizing text reading with
  | nil => exact ⟨reading, spelled⟩
  | cons first olds ih =>
    obtain ⟨got, spelled⟩ := spelled.replaced (some_ first List.mem_cons_self) (outside first List.mem_cons_self) free
    exact ih (fun old mem => some_ old (List.mem_cons_of_mem first mem))
      (fun old mem => outside old (List.mem_cons_of_mem first mem)) spelled

theorem replaceAll_nil (some_ : ∀ old ∈ olds, old ≠ []) : replaceAll olds new [] = [] :=
  replaceAll_of_absent (fun old mem inside => some_ old mem (List.infix_nil.mp inside))

theorem replaceAll_mark {spelling text : List Char} {c : Char} (some_ : new ≠ []) (independent : Independent olds new)
    (outside : ∀ old ∈ olds, Outside e old) (mark : e.Mark spelling c) (miss : ∀ old ∈ olds, ¬old <+: spelling ++ text) :
    replaceAll olds new (spelling ++ text) = spelling ++ replaceAll olds new text := by
  rcases mark with ⟨_, rfl⟩ | read
  · exact replaceAll_keep some_ (fun old mem => (independent old mem).2.2.1) miss
  · have around := @replaceAll_around _ _ new olds spelling
      (fun old mem => ⟨(independent old mem).1, (outside old mem).clear read⟩) [] text
    rwa [replaceAll_nil (fun old mem => (independent old mem).1), List.nil_append, List.nil_append] at around

/-- Where every pattern is spelled as it stands, replacing in the text is replacing in the reading. -/
theorem spells_of_raw {text reading after : List Char} (some_ : new ≠ []) (independent : Independent olds new)
    (outside : ∀ old ∈ olds, Outside e old) (free : backslash ∉ new) (goes : Translated olds new reading after)
    (spelled : Spells e text reading) (raw : Raw e olds text reading) : Spells e (replaceAll olds new text) after := by
  have nothing := @replaceAll_nil olds new (fun old mem => (independent old mem).1)
  induction goes generalizing text with
  | nil =>
    rw [spelled.nil_inv, nothing]
    exact .nil
  | @put old rest _ mem goes ih =>
    obtain ⟨first, second, rfl, empty, spelled'⟩ := raw old mem [] rest rfl
    rw [empty.nil_inv, List.nil_append] at raw ⊢
    have cut := replaceAll_cut independent mem [] second
    rw [nothing, List.nil_append, List.nil_append] at cut
    rw [cut]
    exact (Spells.plain free).append (ih spelled' (raw.after (Spells.plain (outside old mem).plain)))
  | @keep c rest _ none_ goes ih =>
    obtain ⟨spelling, tail, mark, rfl, spelled'⟩ := spelled.cons_inv
    rw [replaceAll_mark some_ independent outside mark
      (fun old mem starts => none_ old mem ((outside old mem).prefix_reading spelled starts))]
    have one : Spells e spelling [c] := by
      rw [← List.append_nil spelling]
      exact .mark mark .nil
    exact .mark mark (ih spelled' (@Raw.after e olds spelling tail [c] rest raw one))

/-- A pattern that is read but not spelled as it stands is touched by none. -/
theorem clear_of_escaped {old other text : List Char} (independent : Independent olds new) (outside : ∀ old ∈ olds, Outside e old)
    (mem : old ∈ olds) (there : other ∈ olds) (spelled : Spells e text old) (escaped : text ≠ old) : Clear other text := by
  have whole : ∀ word, Spells e text word → backslash ∉ text → text = word :=
    fun word spelled free => (Spells.plain free).unique spelled
  have pos := (independent other there).1
  constructor
  · rintro ⟨n, short, agree⟩
    rcases spelled.place (text.take n) (text.drop n) (List.take_append_drop n text).symm with
      ⟨first, second, same, one, two⟩ | ⟨spelling, c, k, read, inside, starts⟩
    · have agree' : Agree second other := by
        rcases agree with starts | starts
        · have free : backslash ∉ text.drop n := fun inside => (outside other there).plain (starts.subset inside)
          rw [two.unique (Spells.plain free)]
          exact Or.inl starts
        · exact Or.inr ((outside other there).prefix_reading two starts)
      have some_ : second ≠ [] := by
        rintro rfl
        have lengths := congrArg List.length two.nil_inv
        rw [List.length_drop, List.length_nil] at lengths
        omega
      have shorter : first.length < old.length := by
        have long := List.length_pos_iff.mpr some_
        rw [same, List.length_append]
        omega
      have cut : old.drop first.length = second := by rw [same, List.drop_left]
      by_cases equal : other = old
      · by_cases empty : first = []
        · subst empty
          rw [equal] at agree
          have all : text.drop n = text := by
            have start := one.nil_inv
            have parts := List.take_append_drop n text
            rwa [start, List.nil_append] at parts
          rw [all] at agree
          rcases agree with starts | starts
          · exact escaped (whole old spelled (fun inside => (outside old mem).plain (starts.subset inside)))
          · obtain ⟨rest, rfl⟩ := starts
            obtain ⟨more, same', rest'⟩ := (Spells.plain (outside old mem).plain).cut spelled
            rw [List.append_cancel_left ((List.append_nil old).trans same').symm] at rest'
            rw [rest'.nil_inv, List.append_nil] at escaped
            exact escaped rfl
        · refine (independent old mem).2.1 ⟨first.length, shorter, List.length_pos_iff.mpr empty, ?_⟩
          rw [cut, ← equal]
          exact agree'
      · refine ((independent old mem).2.2.2 other there equal).1 ⟨first.length, shorter, ?_⟩
        rw [cut]
        exact agree'
    · refine (outside other there).apart spelling c read ⟨k, inside, ?_⟩
      rcases agree with shorter | longer
      · exact Or.inl (starts.trans shorter)
      · exact List.prefix_or_prefix_of_prefix starts longer
  · rintro ⟨n, short, some_, agree⟩
    have free : backslash ∉ other.drop n := fun inside => (outside other there).plain (List.mem_of_mem_drop inside)
    rcases agree with starts | starts
    · obtain ⟨rest, same⟩ := starts
      rw [← same] at spelled
      obtain ⟨more, same', _⟩ := (Spells.plain free).cut spelled
      have entered : Entered other old := ⟨n, short, some_, Or.inl ⟨more, same'.symm⟩⟩
      by_cases equal : other = old
      · rw [equal] at entered
        exact (independent old mem).2.1 entered
      · exact ((independent old mem).2.2.2 other there equal).2 entered
    · exact escaped (whole old spelled (fun inside => free (starts.subset inside)))

/-- Replacing in a text is replacing in its reading just when each pattern is spelled as it stands. -/
theorem spells_replaceAll_iff {text reading after : List Char} (some_ : new ≠ []) (independent : Independent olds new)
    (outside : ∀ old ∈ olds, Outside e old) (free : backslash ∉ new) (goes : Translated olds new reading after)
    (spelled : Spells e text reading) : Spells e (replaceAll olds new text) after ↔ Raw e olds text reading := by
  constructor
  · intro spelled' old mem before rest same
    subst same
    obtain ⟨first, tail, rfl, one, spelled⟩ := spelled.split
    obtain ⟨middle, second, rfl, inner, two⟩ := spelled.split
    by_cases escaped : middle = old
    · exact ⟨first, second, by rw [escaped], one, two⟩
    · exfalso
      have clear := fun other (there : other ∈ olds) => clear_of_escaped independent outside mem there inner escaped
      have pos := fun old mem => (independent old mem).1
      obtain ⟨head, one⟩ := one.replacedAll pos outside free
      obtain ⟨last, two⟩ := two.replacedAll pos outside free
      rw [replaceAll_around (fun other there => ⟨pos other there, clear other there⟩)] at spelled'
      rw [spelled'.unique (one.append (inner.append two))] at goes
      refine absent_of_translated some_ independent goes old mem ?_
      exact (List.prefix_append old last).isInfix.trans (List.suffix_append head _).isInfix
  · exact spells_of_raw some_ independent outside free goes spelled

/-- The same when no two of the patterns that are read touch. -/
theorem spells_replaceAll {text reading : List Char} (some_ : new ≠ []) (apart : Apart olds new reading)
    (outside : ∀ old ∈ olds, Outside e old) (free : backslash ∉ new) (spelled : Spells e text reading) :
    (∃ after, Spells e (replaceAll olds new text) after ∧ Translated olds new reading after) ↔ Raw e olds text reading := by
  let kept := olds.filter (fun old => old <:+: reading)
  have inText : ∀ old ∈ olds, decide (old <:+: reading) = false → ¬old <:+: text := by
    intro old mem out inside
    exact of_decide_eq_false out ((outside old mem).infix_reading spelled inside)
  have outside' : ∀ old ∈ kept, Outside e old := fun old mem => outside old (List.mem_filter.mp mem).1
  have raw : Raw e kept text reading ↔ Raw e olds text reading := by
    constructor
    · intro raw old mem before after same
      refine raw old (List.mem_filter.mpr ⟨mem, decide_eq_true ?_⟩) before after same
      rw [same]
      exact (List.prefix_append old after).isInfix.trans (List.suffix_append before _).isInfix
    · exact fun raw old mem => raw old (List.mem_filter.mp mem).1
  rw [replaceAll_filter some_ apart.1 inText, ← raw]
  constructor
  · rintro ⟨after, spelled', goes⟩
    exact (spells_replaceAll_iff some_ apart.2 outside' free (goes.filter absent_of_filtered) spelled).mp spelled'
  · intro raw
    have goes := translated_replaceAll some_ apart
    exact ⟨_, (spells_replaceAll_iff some_ apart.2 outside' free (goes.filter absent_of_filtered) spelled).mpr raw, goes⟩

/-- A text that stays stands for what is read just when no pattern is read. -/
theorem spells_self {text reading : List Char} (some_ : new ≠ []) (apart : Apart olds new reading) (spelled : Spells e text reading) :
    (∃ after, Spells e text after ∧ Translated olds new reading after) ↔ ∀ old ∈ olds, ¬old <:+: reading := by
  rw [← translated_self some_ apart]
  constructor
  · rintro ⟨after, spelled', goes⟩
    rwa [spelled'.unique spelled] at goes
  · exact fun goes => ⟨reading, spelled, goes⟩

end Replaced

end ToolArtifactRegistry.Library.Spelling
