import ToolArtifactRegistry.Library.Spelling

/-! Where IRI references, string literals and comments stand in a SPARQL text, and texts put together from
pieces: when each piece keeps its tokens. -/
namespace ToolArtifactRegistry.Library.Sparql

open Spelling

/-! Escapes of code points, which are resolved before a text is read. -/

def numbered (count : Nat) (text : List Char) : Option (Char × Nat) :=
  if (text.take count).length = count then (hexNumber (text.take count) >>= scalar).map (fun c => (c, count + 1)) else none

/-- The character an escape stands for, and how much of the text behind the backslash it takes. -/
def codePoint : List Char → Option (Char × Nat)
  | [] => none
  | letter :: rest => if letter = 'u' then numbered 4 rest else if letter = 'U' then numbered 8 rest else none

/-- The number counts what is left of an escape; a character behind another backslash stands for itself. -/
def pointsFrom : Nat → Bool → List Char → List Char
  | _, _, [] => []
  | skip + 1, raw, _ :: rest => pointsFrom skip raw rest
  | 0, true, c :: rest => c :: pointsFrom 0 false rest
  | 0, false, c :: rest =>
    if c = backslash then
      match codePoint rest with
      | some (d, length) => d :: pointsFrom length false rest
      | none => c :: pointsFrom 0 true rest
    else c :: pointsFrom 0 false rest

def points (text : List Char) : List Char := pointsFrom 0 false text

/-! Tokens. -/

/-- Whatever is no IRI reference, string or comment is taken character by character. -/
inductive Token where
  | iri (content : List Char)
  | string (content : List Char)
  | comment (content : List Char)
  | other (c : Char)
  deriving DecidableEq

def apostrophe : Char := Char.ofNat 39

def backtick : Char := Char.ofNat 96

/-- A character an IRI reference can hold. -/
def irirefChar (c : Char) : Bool :=
  decide (32 < c.toNat) && c != '<' && c != '>' && c != '"' && c != Char.ofNat 123 && c != Char.ofNat 125 && c != '|' &&
    c != '^' && c != backtick && c != backslash

/-- What stands before the closing bracket. -/
def spanIri : List Char → Option (List Char)
  | [] => none
  | c :: rest => if c = '>' then some [] else if irirefChar c then (spanIri rest).map (c :: ·) else none

/-- What a letter stands for behind the backslash in a string. -/
def echar (letter : Char) : Option Char :=
  if letter = '"' ∨ letter = apostrophe ∨ letter = backslash then some letter else control letter

/-- The content of a string up to its quote, and how much of the text it takes. -/
def spanString (quote : Char) : List Char → Option (List Char × Nat)
  | [] => none
  | c :: rest =>
    if c = quote then some ([], 1)
    else if c = '\n' ∨ c = '\r' then none
    else if c = backslash then
      match rest with
      | [] => none
      | letter :: more => (echar letter).bind (fun d => (spanString quote more).map (fun span => (d :: span.1, span.2 + 2)))
    else (spanString quote rest).map (fun span => (c :: span.1, span.2 + 1))

/-- The content of a string in three quotes. -/
def spanLong (quote : Char) : List Char → Option (List Char × Nat)
  | [] => none
  | c :: rest =>
    if [quote, quote, quote] <+: c :: rest then some ([], 3)
    else if c = backslash then
      match rest with
      | [] => none
      | letter :: more => (echar letter).bind (fun d => (spanLong quote more).map (fun span => (d :: span.1, span.2 + 2)))
    else (spanLong quote rest).map (fun span => (c :: span.1, span.2 + 1))

/-- The token that begins with a character, and how many further characters it takes. -/
def token (c : Char) (rest : List Char) : Token × Nat :=
  if c = '<' then
    match spanIri rest with
    | some content => (.iri content, content.length + 1)
    | none => (.other c, 0)
  else if c = '"' ∨ c = apostrophe then
    if [c, c] <+: rest then
      match spanLong c (rest.drop 2) with
      | some (content, length) => (.string content, length + 2)
      | none => (.other c, 0)
    else
      match spanString c rest with
      | some (content, length) => (.string content, length)
      | none => (.other c, 0)
  else if c = '#' then
    let content := rest.takeWhile (fun d => d != '\n' && d != '\r')
    (.comment content, content.length)
  else (.other c, 0)

/-- The number counts what is left of a token. -/
def lexFrom : Nat → List Char → List Token
  | _, [] => []
  | skip + 1, _ :: rest => lexFrom skip rest
  | 0, c :: rest => (token c rest).1 :: lexFrom (token c rest).2 rest

def lex (text : List Char) : List Token := lexFrom 0 text

def tokens (text : List Char) : List Token := lex (points text)

/-! Texts put together from pieces. -/

/-- A text of its own, an IRI in angle brackets, or a value spelled between quotes. -/
inductive Part where
  | text (written : String)
  | iri (content : String)
  | literal (spelled value : String)

def Part.written (part : Part) : List Char :=
  match part with
  | .text written => written.toList
  | .iri content => '<' :: content.toList ++ ['>']
  | .literal spelled _ => '"' :: spelled.toList ++ ['"']

/-- The tokens of a piece on its own: an IRI is one reference, a value one string with just that content. -/
def Part.tokens (part : Part) : List Token :=
  match part with
  | .text written => lex written.toList
  | .iri content => [.iri (points content.toList)]
  | .literal _ value => [.string value.toList]

def write (parts : List Part) : List Char := parts.flatMap Part.written

/-- Every character can stand in an IRI reference. -/
def Safe (content : List Char) : Prop := ∀ c ∈ points content, irirefChar c = true

/-- Where a token begins it ends before the text does, whatever follows. -/
def endsHere (c : Char) (rest : List Char) : Bool :=
  if c = '<' then rest.any (fun d => !irirefChar d)
  else if c = '"' ∨ c = apostrophe then rest.head? != some c && (spanString c rest).isSome
  else c != '#'

def closedFrom : Nat → List Char → Bool
  | skip, [] => skip == 0
  | skip + 1, _ :: rest => closedFrom skip rest
  | 0, c :: rest => endsHere c rest && closedFrom (token c rest).2 rest

/-- A text whose tokens are the same whatever follows it. -/
def closed (text : List Char) : Bool := !text.contains backslash && closedFrom 0 text

/-- How a value is spelled between quotes. -/
inductive Denotes : List Char → List Char → Prop
  | nil : Denotes [] []
  | plain {c : Char} {spelled value : List Char} (free : c ≠ '"' ∧ c ≠ '\n' ∧ c ≠ '\r' ∧ c ≠ backslash)
      (rest : Denotes spelled value) : Denotes (c :: spelled) (c :: value)
  | escape {letter d : Char} {spelled value : List Char} (stands : echar letter = some d) (rest : Denotes spelled value) :
      Denotes (backslash :: letter :: spelled) (d :: value)
  | point {digits : List Char} {c : Char} {spelled value : List Char} (four : digits.length = 4)
      (stands : hexNumber digits >>= scalar = some c) (free : c ≠ '"' ∧ c ≠ '\n' ∧ c ≠ '\r' ∧ c ≠ backslash)
      (rest : Denotes spelled value) : Denotes (backslash :: 'u' :: digits ++ spelled) (c :: value)

/-- A piece that keeps its tokens wherever it stands, an IRI in it apart. -/
def Part.Sound (part : Part) : Prop :=
  match part with
  | .text written => closed written.toList = true
  | .iri _ => True
  | .literal spelled value => spelled ≠ "" ∧ Denotes spelled.toList value.toList

section Points

attribute [local simp] spanIri spanString spanLong

theorem points_cons {c : Char} (free : c ≠ backslash) (rest : List Char) : points (c :: rest) = c :: points rest := by
  unfold points
  rw [pointsFrom, if_neg free]

theorem points_plain {text : List Char} (free : backslash ∉ text) (rest : List Char) : points (text ++ rest) = text ++ points rest := by
  induction text with
  | nil => rfl
  | cons c text ih =>
    rw [List.mem_cons, not_or] at free
    rw [List.cons_append, points_cons (fun same => free.1 same.symm), ih free.2]
    rfl

theorem pointsFrom_skip (raw : Bool) (skipped text : List Char) :
    pointsFrom skipped.length raw (skipped ++ text) = pointsFrom 0 raw text := by
  induction skipped with
  | nil => rfl
  | cons c rest ih => exact ih

theorem numbered_bracket (count : Nat) (text rest : List Char) : numbered count (text ++ '>' :: rest) = numbered count text := by
  unfold numbered
  by_cases long : count ≤ text.length
  · rw [List.take_append_of_le_length long]
  · have bracket : '>' ∈ (text ++ '>' :: rest).take count := by
      rw [List.take_append, List.mem_append]
      obtain ⟨more, same⟩ : ∃ more, count - text.length = more + 1 := ⟨count - text.length - 1, by omega⟩
      rw [same]
      exact Or.inr List.mem_cons_self
    have short : (text.take count).length ≠ count := by
      rw [List.length_take]
      omega
    rw [if_neg short]
    split
    · cases number : hexNumber ((text ++ '>' :: rest).take count) with
      | none => rfl
      | some n => exact absurd (by decide) (digits_of_hexNumber number '>' bracket)
    · rfl

theorem codePoint_bracket (text rest : List Char) : codePoint (text ++ '>' :: rest) = codePoint text := by
  cases text with
  | nil => rfl
  | cons letter text =>
    show (if letter = 'u' then numbered 4 (text ++ '>' :: rest) else if letter = 'U' then numbered 8 (text ++ '>' :: rest) else none) = _
    rw [numbered_bracket, numbered_bracket]
    rfl

theorem numbered_length {count length : Nat} {text : List Char} {c : Char} (found : numbered count text = some (c, length)) :
    length ≤ text.length + 1 := by
  unfold numbered at found
  split at found
  · next full =>
    obtain ⟨d, _, same⟩ := Option.map_eq_some_iff.mp found
    cases same
    rw [List.length_take] at full
    omega
  · cases found

theorem codePoint_length {length : Nat} {text : List Char} {c : Char} (found : codePoint text = some (c, length)) :
    length ≤ text.length := by
  cases text with
  | nil => cases found
  | cons letter text =>
    rw [codePoint] at found
    by_cases four : letter = 'u'
    · rw [if_pos four] at found
      exact numbered_length found
    · rw [if_neg four] at found
      by_cases eight : letter = 'U'
      · rw [if_pos eight] at found
        exact numbered_length found
      · rw [if_neg eight] at found
        cases found

/-- An angle bracket ends whatever escape is open. -/
theorem pointsFrom_bracket {skip : Nat} {raw : Bool} {text : List Char} (within : skip ≤ text.length) (rest : List Char) :
    pointsFrom skip raw (text ++ '>' :: rest) = pointsFrom skip raw text ++ '>' :: points rest := by
  induction text generalizing skip raw with
  | nil =>
    have none_ : skip = 0 := Nat.le_zero.mp within
    subst none_
    cases raw with
    | true => rfl
    | false => exact points_cons (by decide) rest
  | cons c text ih =>
    cases skip with
    | succ skip => exact ih (Nat.le_of_succ_le_succ within)
    | zero =>
      cases raw with
      | true => exact congrArg (c :: ·) (ih (Nat.zero_le _))
      | false =>
        rw [List.cons_append, pointsFrom, pointsFrom, codePoint_bracket]
        by_cases escape : c = backslash
        · rw [if_pos escape, if_pos escape]
          cases found : codePoint text with
          | none => exact congrArg (c :: ·) (ih (Nat.zero_le _))
          | some point => exact congrArg (point.1 :: ·) (ih (codePoint_length found))
        · rw [if_neg escape, if_neg escape]
          exact congrArg (c :: ·) (ih (Nat.zero_le _))

theorem points_bracket (text rest : List Char) : points (text ++ '>' :: rest) = points text ++ '>' :: points rest :=
  pointsFrom_bracket (Nat.zero_le _) rest

theorem points_escape {letter d : Char} (stands : echar letter = some d) (rest : List Char) :
    points (backslash :: letter :: rest) = backslash :: letter :: points rest := by
  have noPoint : codePoint (letter :: rest) = none := by
    have none_ : echar 'u' = none ∧ echar 'U' = none := by decide
    rw [codePoint, if_neg, if_neg]
    · intro same
      rw [same, none_.2] at stands
      cases stands
    · intro same
      rw [same, none_.1] at stands
      cases stands
  unfold points
  rw [pointsFrom, if_pos rfl, noPoint]
  rfl

theorem points_point {digits : List Char} {c : Char} (four : digits.length = 4) (stands : hexNumber digits >>= scalar = some c)
    (rest : List Char) : points (backslash :: 'u' :: digits ++ rest) = c :: points rest := by
  have found : codePoint ('u' :: (digits ++ rest)) = some (c, ('u' :: digits).length) := by
    show numbered 4 (digits ++ rest) = _
    unfold numbered
    rw [← four, List.take_left, if_pos rfl, stands]
    rfl
  show pointsFrom 0 false (backslash :: 'u' :: (digits ++ rest)) = _
  rw [pointsFrom, if_pos rfl, found]
  exact congrArg (c :: ·) (pointsFrom_skip false ('u' :: digits) rest)

end Points

section Strings

theorem spanString_plain {quote c : Char} (free : c ≠ quote ∧ c ≠ '\n' ∧ c ≠ '\r' ∧ c ≠ backslash) (rest : List Char) :
    spanString quote (c :: rest) = (spanString quote rest).map (fun span => (c :: span.1, span.2 + 1)) := by
  rw [spanString.eq_def]
  dsimp only
  rw [if_neg free.1, if_neg (fun line => line.elim free.2.1 free.2.2.1), if_neg free.2.2.2]

theorem spanString_escape {letter d : Char} (stands : echar letter = some d) (rest : List Char) :
    spanString '"' (backslash :: letter :: rest) = (spanString '"' rest).map (fun span => (d :: span.1, span.2 + 2)) := by
  rw [spanString.eq_def]
  dsimp only
  rw [if_neg (by decide), if_neg (by decide), if_pos rfl, stands]
  rfl

/-- A spelled value, once its code points are resolved, is read back. -/
theorem Denotes.reads {spelled value : List Char} (denotes : Denotes spelled value) :
    ∃ resolved : List Char, (∀ rest, points (spelled ++ rest) = resolved ++ points rest) ∧
      (∀ rest, spanString '"' (resolved ++ '"' :: rest) = some (value, resolved.length + 1)) ∧
      resolved.head? ≠ some '"' ∧ (spelled ≠ [] → resolved ≠ []) := by
  induction denotes with
  | nil => exact ⟨[], fun _ => rfl, fun _ => by rw [List.nil_append, spanString.eq_def]; rfl, nofun, fun some_ => absurd rfl some_⟩
  | @plain c spelled value free _ ih =>
    obtain ⟨resolved, resolves, reads, _, _⟩ := ih
    refine ⟨c :: resolved, fun rest => ?_, fun rest => ?_, fun same => free.1 (Option.some.inj same), fun _ => List.cons_ne_nil _ _⟩
    · rw [List.cons_append, points_cons free.2.2.2, resolves]
      rfl
    · rw [List.cons_append, spanString_plain free, reads]
      rfl
  | @escape letter d spelled value stands _ ih =>
    obtain ⟨resolved, resolves, reads, _, _⟩ := ih
    refine ⟨backslash :: letter :: resolved, fun rest => ?_, fun rest => ?_, fun same => absurd (Option.some.inj same) (by decide), fun _ => List.cons_ne_nil _ _⟩
    · rw [List.cons_append, List.cons_append, points_escape stands, resolves]
      rfl
    · rw [List.cons_append, List.cons_append, spanString_escape stands, reads]
      rfl
  | @point digits c spelled value four stands free _ ih =>
    obtain ⟨resolved, resolves, reads, _, _⟩ := ih
    refine ⟨c :: resolved, fun rest => ?_, fun rest => ?_, fun same => free.1 (Option.some.inj same), fun _ => List.cons_ne_nil _ _⟩
    · rw [List.append_assoc, points_point four stands, resolves]
      rfl
    · rw [List.cons_append, spanString_plain free, reads]
      rfl

end Strings

section Tokens

theorem spanIri_safe {content : List Char} (safe : ∀ c ∈ content, irirefChar c = true) (rest : List Char) :
    spanIri (content ++ '>' :: rest) = some content := by
  induction content with
  | nil => rfl
  | cons c content ih =>
    have here := safe c List.mem_cons_self
    have open_ : c ≠ '>' := by
      rintro rfl
      revert here
      decide
    rw [List.cons_append, spanIri, if_neg open_, if_pos here, ih (fun d mem => safe d (List.mem_cons_of_mem c mem))]
    rfl

theorem safe_of_spanIri {text content : List Char} (found : spanIri text = some content) : ∀ c ∈ content, irirefChar c = true := by
  induction text generalizing content with
  | nil => cases found
  | cons c rest ih =>
    rw [spanIri] at found
    by_cases closes : c = '>'
    · rw [if_pos closes] at found
      cases found
      exact fun _ mem => nomatch mem
    · rw [if_neg closes] at found
      by_cases fits : irirefChar c = true
      · rw [if_pos fits] at found
        obtain ⟨more, found', same⟩ := Option.map_eq_some_iff.mp found
        cases same
        intro d mem
        rcases List.mem_cons.mp mem with rfl | there
        · exact fits
        · exact ih found' d there
      · rw [if_neg fits] at found
        cases found

/-- Whether an IRI reference begins is known by the first character it cannot hold. -/
theorem spanIri_append {text : List Char} (ends : text.any (fun c => !irirefChar c) = true) (rest : List Char) :
    spanIri (text ++ rest) = spanIri text := by
  induction text with
  | nil => cases ends
  | cons c text ih =>
    rw [List.cons_append, spanIri, spanIri]
    by_cases closes : c = '>'
    · rw [if_pos closes, if_pos closes]
    · rw [if_neg closes, if_neg closes]
      cases fits : irirefChar c with
      | false => rfl
      | true =>
        rw [List.any_cons, fits] at ends
        rw [if_pos rfl, if_pos rfl, ih ends]

theorem spanString_append {quote : Char} {text : List Char} (ends : (spanString quote text).isSome = true) (rest : List Char) :
    spanString quote (text ++ rest) = spanString quote text := by
  induction many : text.length using Nat.strong_induction_on generalizing text with
  | _ n ih =>
    cases text with
    | nil =>
      rw [spanString.eq_def] at ends
      cases ends
    | cons c text =>
      rw [List.length_cons] at many
      rw [spanString.eq_def] at ends
      rw [List.cons_append, spanString.eq_def, spanString.eq_def _ (c :: text)]
      dsimp only at ends ⊢
      by_cases closes : c = quote
      · rw [if_pos closes, if_pos closes]
      · rw [if_neg closes] at ends ⊢
        rw [if_neg closes]
        by_cases line : c = '\n' ∨ c = '\r'
        · rw [if_pos line] at ends
          cases ends
        · rw [if_neg line] at ends ⊢
          rw [if_neg line]
          by_cases escape : c = backslash
          · rw [if_pos escape] at ends ⊢
            rw [if_pos escape]
            cases text with
            | nil => cases ends
            | cons letter more =>
              cases stands : echar letter with
              | none => simp [stands] at ends
              | some d =>
                simp only [stands, Option.bind_some, Option.isSome_map] at ends
                simp only [List.cons_append, stands, Option.bind_some]
                rw [ih more.length (by rw [← many, List.length_cons]; omega) ends rfl]
          · rw [if_neg escape] at ends ⊢
            rw [if_neg escape]
            rw [Option.isSome_map] at ends
            rw [ih text.length (by omega) ends rfl]

theorem token_append {c : Char} {text : List Char} (ends : endsHere c text = true) (rest : List Char) :
    token c (text ++ rest) = token c text := by
  unfold endsHere at ends
  unfold token
  by_cases bracket : c = '<'
  · rw [if_pos bracket] at ends
    rw [if_pos bracket, if_pos bracket, spanIri_append ends]
  · rw [if_neg bracket] at ends
    rw [if_neg bracket, if_neg bracket]
    by_cases quote : c = '"' ∨ c = apostrophe
    · rw [if_pos quote, Bool.and_eq_true] at ends
      rw [if_pos quote, if_pos quote]
      have single : ∀ more, text.head? = more → more ≠ some c → ¬[c, c] <+: text ++ rest ∧ ¬[c, c] <+: text := by
        intro more head other
        cases text with
        | nil =>
          rw [spanString.eq_def] at ends
          cases ends.2
        | cons d text =>
          have differs : c ≠ d := fun same => other (by rw [← head, same]; rfl)
          exact ⟨fun starts => differs (List.cons_prefix_cons.mp starts).1, fun starts => differs (List.cons_prefix_cons.mp starts).1⟩
      obtain ⟨long, long'⟩ := single text.head? rfl (by simpa using ends.1)
      rw [if_neg long, if_neg long', spanString_append ends.2]
    · rw [if_neg quote] at ends
      have plain : c ≠ '#' := by simpa using ends
      rw [if_neg quote, if_neg quote, if_neg plain, if_neg plain]

theorem endsHere_append {c : Char} {text : List Char} (ends : endsHere c text = true) (rest : List Char) :
    endsHere c (text ++ rest) = true := by
  unfold endsHere at ends ⊢
  by_cases bracket : c = '<'
  · rw [if_pos bracket] at ends ⊢
    rw [List.any_append, ends, Bool.true_or]
  · rw [if_neg bracket] at ends ⊢
    by_cases quote : c = '"' ∨ c = apostrophe
    · rw [if_pos quote, Bool.and_eq_true] at ends
      rw [if_pos quote, spanString_append ends.2, Bool.and_eq_true]
      cases text with
      | nil =>
        rw [spanString.eq_def] at ends
        cases ends.2
      | cons d text => exact ends
    · rw [if_neg quote] at ends ⊢
      exact ends

theorem closedFrom_append {skip : Nat} {left right : List Char} (first : closedFrom skip left = true)
    (second : closedFrom 0 right = true) : closedFrom skip (left ++ right) = true := by
  induction left generalizing skip with
  | nil =>
    rw [closedFrom, beq_iff_eq] at first
    rw [first]
    exact second
  | cons c left ih =>
    cases skip with
    | succ skip =>
      rw [closedFrom] at first
      exact ih first
    | zero =>
      rw [closedFrom, Bool.and_eq_true] at first
      rw [List.cons_append, closedFrom, token_append first.1, endsHere_append first.1, ih first.2]
      rfl

theorem closed_append {left right : List Char} (first : closed left = true) (second : closed right = true) :
    closed (left ++ right) = true := by
  unfold closed at first second ⊢
  rw [Bool.and_eq_true, Bool.not_eq_true', ← Bool.not_eq_true, List.contains_iff_mem] at first second ⊢
  rw [List.mem_append, not_or]
  exact ⟨⟨first.1, second.1⟩, closedFrom_append first.2 second.2⟩

/-- A text without brackets, quotes, comments and backslashes has only single characters for tokens. -/
theorem closed_plain {text : List Char}
    (free : ∀ c ∈ text, c ≠ backslash ∧ c ≠ '<' ∧ c ≠ '"' ∧ c ≠ apostrophe ∧ c ≠ '#') : closed text = true := by
  induction text with
  | nil => rfl
  | cons c text ih =>
    have rest := ih (fun d mem => free d (List.mem_cons_of_mem c mem))
    obtain ⟨noSlash, noBracket, noQuote, noApostrophe, noHash⟩ := free c List.mem_cons_self
    unfold closed at rest ⊢
    rw [Bool.and_eq_true, Bool.not_eq_true', ← Bool.not_eq_true, List.contains_iff_mem] at rest ⊢
    rw [List.mem_cons, not_or]
    have quoted : ¬(c = '"' ∨ c = apostrophe) := fun either => either.elim noQuote noApostrophe
    refine ⟨⟨fun same => noSlash same.symm, rest.1⟩, ?_⟩
    have single : token c text = (.other c, 0) := by
      unfold token
      rw [if_neg noBracket, if_neg quoted, if_neg noHash]
    rw [closedFrom, single, Bool.and_eq_true]
    refine ⟨?_, rest.2⟩
    unfold endsHere
    rw [if_neg noBracket, if_neg quoted]
    exact bne_iff_ne.mpr noHash

/-- A reference in its brackets is closed. -/
theorem closed_iri {content : List Char} (safe : ∀ c ∈ content, irirefChar c = true) :
    closed ('<' :: (content ++ ['>'])) = true := by
  have inside : ∀ c ∈ content, c ≠ backslash := by
    intro c mem same
    have here := safe c mem
    rw [same] at here
    revert here
    decide
  have here : token '<' (content ++ ['>']) = (.iri content, (content ++ ['>']).length) := by
    unfold token
    rw [if_pos rfl, spanIri_safe safe, List.length_append]
    rfl
  have skips : ∀ text : List Char, closedFrom text.length text = true := by
    intro text
    induction text with
    | nil => rfl
    | cons c text ih => exact ih
  unfold closed
  rw [Bool.and_eq_true, Bool.not_eq_true', ← Bool.not_eq_true, List.contains_iff_mem, List.mem_cons, List.mem_append,
    List.mem_singleton, not_or, not_or]
  refine ⟨⟨by decide, fun mem => inside _ mem rfl, by decide⟩, ?_⟩
  rw [closedFrom, here, skips]
  unfold endsHere
  rw [if_pos rfl, List.any_append]
  simp [show irirefChar '>' = false by decide]

/-- A text given as a string, checked on its characters. -/
theorem closed_of {written : String} {chars : List Char} (same : written = String.ofList chars) (closes : closed chars = true) :
    closed written.toList = true := by
  rw [same, String.toList_ofList]
  exact closes

theorem closed_concat {left right : String} (first : closed left.toList = true) (second : closed right.toList = true) :
    closed (left ++ right).toList = true := by
  rw [String.toList_append]
  exact closed_append first second

theorem lexFrom_skip (skipped text : List Char) : lexFrom skipped.length (skipped ++ text) = lex text := by
  induction skipped with
  | nil => rfl
  | cons c rest ih => exact ih

theorem lexFrom_append {skip : Nat} {text : List Char} (closes : closedFrom skip text = true) (rest : List Char) :
    lexFrom skip (text ++ rest) = lexFrom skip text ++ lex rest := by
  induction text generalizing skip with
  | nil =>
    rw [closedFrom, beq_iff_eq] at closes
    rw [closes]
    rfl
  | cons c text ih =>
    cases skip with
    | succ skip =>
      rw [closedFrom] at closes
      exact ih closes
    | zero =>
      rw [closedFrom, Bool.and_eq_true] at closes
      rw [List.cons_append, lexFrom, lexFrom, token_append closes.1, ih closes.2]
      rfl

end Tokens

section Parts

/-- A sound piece keeps its tokens, whatever follows it. -/
theorem tokens_part {part : Part} (sound : part.Sound) (safe : ∀ content, part = .iri content → Safe content.toList) (rest : List Char) :
    tokens (part.written ++ rest) = part.tokens ++ tokens rest := by
  unfold Library.Sparql.tokens
  cases part with
  | text written =>
    have closes : (!written.toList.contains backslash && closedFrom 0 written.toList) = true := sound
    rw [Bool.and_eq_true, Bool.not_eq_true', ← Bool.not_eq_true, List.contains_iff_mem] at closes
    show lex (points (written.toList ++ rest)) = lex written.toList ++ _
    rw [points_plain closes.1]
    exact lexFrom_append closes.2 (points rest)
  | iri content =>
    have fits := safe content rfl
    have whole : (Part.iri content).written ++ rest = '<' :: (content.toList ++ '>' :: rest) := by simp [Part.written]
    rw [whole, points_cons (by decide), points_bracket]
    have here : token '<' (points content.toList ++ '>' :: points rest) =
        (.iri (points content.toList), (points content.toList ++ ['>']).length) := by
      unfold token
      rw [if_pos rfl, spanIri_safe fits, List.length_append]
      rfl
    show lexFrom 0 ('<' :: (points content.toList ++ '>' :: points rest)) = _
    rw [lexFrom, here, List.append_cons _ '>' (points rest)]
    exact congrArg (_ :: ·) (lexFrom_skip (points content.toList ++ ['>']) (points rest))
  | literal spelled value =>
    obtain ⟨some_, denotes⟩ := sound
    obtain ⟨resolved, resolves, reads, head, some'⟩ := denotes.reads
    have whole : (Part.literal spelled value).written ++ rest = '"' :: (spelled.toList ++ '"' :: rest) := by simp [Part.written]
    rw [whole, points_cons (by decide), resolves, points_cons (by decide)]
    have single : ¬['"', '"'] <+: resolved ++ '"' :: points rest := by
      cases resolved with
      | nil => exact absurd rfl (some' (fun empty => some_ (String.toList_inj.mp empty)))
      | cons d resolved => exact fun starts => head (by rw [← (List.cons_prefix_cons.mp starts).1]; rfl)
    have here : token '"' (resolved ++ '"' :: points rest) = (.string value.toList, (resolved ++ ['"']).length) := by
      unfold token
      rw [if_neg (by decide), if_pos (Or.inl rfl), if_neg single, reads, List.length_append]
      rfl
    show lexFrom 0 ('"' :: (resolved ++ '"' :: points rest)) = _
    rw [lexFrom, here, List.append_cons _ '"' (points rest)]
    exact congrArg (_ :: ·) (lexFrom_skip (resolved ++ ['"']) (points rest))

/-- An IRI that an IRI reference cannot hold is not one. -/
theorem safe_of_tokens {content : String} {rest : List Char} {more : List Token}
    (kept : tokens ((Part.iri content).written ++ rest) = .iri (points content.toList) :: more) : Safe content.toList := by
  have whole : (Part.iri content).written ++ rest = '<' :: (content.toList ++ '>' :: rest) := by simp [Part.written]
  unfold tokens at kept
  rw [whole, points_cons (by decide), points_bracket] at kept
  have first : (token '<' (points content.toList ++ '>' :: points rest)).1 = .iri (points content.toList) := (List.cons.inj kept).1
  unfold token at first
  rw [if_pos rfl] at first
  split at first
  · next found =>
    have fits := safe_of_spanIri found
    rw [show _ = points content.toList from Token.iri.inj first] at fits
    exact fits
  · cases first

/-- Each piece of a text keeps its tokens just when every IRI among them can stand in an IRI reference. -/
theorem tokens_write_iff {parts : List Part} (sound : ∀ part ∈ parts, part.Sound) :
    tokens (write parts) = parts.flatMap Part.tokens ↔ ∀ content, Part.iri content ∈ parts → Safe content.toList := by
  induction parts with
  | nil => exact ⟨fun _ _ mem => (nomatch mem), fun _ => rfl⟩
  | cons part parts ih =>
    have rest := ih (fun other mem => sound other (List.mem_cons_of_mem part mem))
    show tokens (part.written ++ write parts) = part.tokens ++ parts.flatMap Part.tokens ↔ _
    by_cases safe : ∀ content, part = .iri content → Safe content.toList
    · rw [tokens_part (sound part List.mem_cons_self) safe, List.append_cancel_left_eq, rest]
      constructor
      · intro all content mem
        rcases List.mem_cons.mp mem with same | there
        · exact safe content same.symm
        · exact all content there
      · exact fun all content mem => all content (List.mem_cons_of_mem part mem)
    · constructor
      · intro kept
        refine absurd (fun content same => ?_) safe
        subst same
        exact safe_of_tokens kept
      · intro all
        exact absurd (fun content same => all content (by rw [same]; exact List.mem_cons_self)) safe

theorem write_append (left right : List Part) : write (left ++ right) = write left ++ write right := List.flatMap_append

end Parts

end ToolArtifactRegistry.Library.Sparql
