import ToolArtifactRegistry.Library.Turtle

/-! A Turtle document read piece by piece: what each piece of it is read as does not depend on what was read before. -/
namespace ToolArtifactRegistry.Library.Turtle

namespace Lexer

/-- The same place of a document, with more read before it. -/
def onto (out : List Token) (lexer : Lexer) : Lexer := ⟨lexer.mode, lexer.tokens ++ out⟩

variable (out : List Token)

theorem between_onto (tokens : List Token) (c : Char) : between (tokens ++ out) c = (between tokens c).map (onto out) := by
  unfold between
  split_ifs <;> rfl

theorem endRun_onto (tokens : List Token) (read : List Spelt) :
    endRun (tokens ++ out) read = (endRun tokens read).map (· ++ out) := by
  unfold endRun
  cases classify (read.dropWhile isDot).reverse with
  | none => rfl
  | some token => simp

theorem endTag_onto (tokens : List Token) (read : List Char) :
    endTag (tokens ++ out) read = (endTag tokens read).map (· ++ out) := by
  unfold endTag
  split <;> rfl

theorem stepBody_onto (tokens : List Token) (quoting : Quoting) (read : List Char) (c : Char) :
    stepBody (tokens ++ out) quoting read c = (stepBody tokens quoting read c).map (onto out) := by
  unfold stepBody
  cases quoting <;> dsimp only <;> split_ifs <;> rfl

theorem stepEscape_onto (tokens : List Token) (quoting : Quoting) (read : List Char) (c : Char) :
    stepEscape (tokens ++ out) quoting read c = (stepEscape tokens quoting read c).map (onto out) := by
  unfold stepEscape
  split_ifs
  · rfl
  · rfl
  · rfl
  · rw [Option.map_map]
    rfl

theorem stepHex_onto (tokens : List Token) (quoting : Quoting) (read : List Char) (left value : Nat) (c : Char) :
    stepHex (tokens ++ out) quoting read left value c = (stepHex tokens quoting read left value c).map (onto out) := by
  unfold stepHex
  cases hexValue c with
  | none => rfl
  | some h =>
    dsimp only [Option.bind_some]
    split_ifs <;> rfl

theorem step_onto (lexer : Lexer) (c : Char) : step (lexer.onto out) c = (step lexer c).map (onto out) := by
  obtain ⟨mode, tokens⟩ := lexer
  unfold step onto
  cases mode with
  | gap => exact between_onto out tokens c
  | comment => rfl
  | body quoting read => exact stepBody_onto out tokens quoting read c
  | escape quoting read => exact stepEscape_onto out tokens quoting read c
  | hex quoting read left value => exact stepHex_onto out tokens quoting read left value c
  | opened quote =>
    dsimp only
    split
    · rfl
    · exact stepBody_onto out tokens (.short quote) [] c
  | doubled quote =>
    dsimp only
    split
    · rfl
    · exact between_onto out (.text "" :: tokens) c
  | run read =>
    dsimp only
    split_ifs
    · rfl
    · rfl
    · rw [endRun_onto]
      cases endRun tokens read with
      | none => rfl
      | some tokens => exact between_onto out tokens c
  | runEscape read =>
    dsimp only
    split <;> rfl
  | tag read =>
    dsimp only
    split
    · rfl
    · rw [endTag_onto]
      cases endTag tokens read with
      | none => rfl
      | some tokens => exact between_onto out tokens c
  | dot =>
    dsimp only
    split
    · rfl
    · exact between_onto out (.mark '.' :: tokens) c
  | caret =>
    dsimp only
    split <;> rfl

theorem run_onto (piece : List Char) (lexer : Lexer) :
    piece.foldlM step (lexer.onto out) = (piece.foldlM step lexer).map (onto out) := by
  induction piece generalizing lexer with
  | nil => rfl
  | cons c rest ih =>
    rw [List.foldlM_cons, List.foldlM_cons, step_onto]
    cases step lexer c with
    | none => rfl
    | some next => exact ih next

end Lexer

open Lexer

/-- A piece of a document between two tokens is read as these tokens. -/
def Reads (piece : List Char) (tokens : List Token) : Prop :=
  ∀ out, piece.foldlM step ⟨.gap, out⟩ = some ⟨.gap, tokens.reverse ++ out⟩

/-- A piece of a document at which it stops being Turtle. -/
def Breaks (piece : List Char) : Prop := ∀ out, piece.foldlM step ⟨.gap, out⟩ = none

theorem reads_nil : Reads [] [] := fun _ => rfl

/-- What is read at the start of a document is read the same anywhere. -/
theorem reads_of {piece : List Char} {tokens : List Token} (read : piece.foldlM step ⟨.gap, []⟩ = some ⟨.gap, tokens.reverse⟩) :
    Reads piece tokens := by
  intro out
  have moved := run_onto out piece ⟨.gap, []⟩
  rw [read] at moved
  exact moved

theorem Reads.append {left right : List Char} {first second : List Token} (one : Reads left first) (two : Reads right second) :
    Reads (left ++ right) (first ++ second) := by
  intro out
  rw [List.foldlM_append, one out, List.reverse_append, List.append_assoc]
  exact two _

theorem Reads.breaks {left right : List Char} {tokens : List Token} (one : Reads left tokens) (two : Breaks right) :
    Breaks (left ++ right) := by
  intro out
  rw [List.foldlM_append, one out]
  exact two _

theorem Breaks.append {left : List Char} (one : Breaks left) (right : List Char) : Breaks (left ++ right) := by
  intro out
  rw [List.foldlM_append, one out]
  rfl

/-- A piece that is read as these tokens under a condition, and at which the document stops being Turtle otherwise. -/
structure Settles (piece : List Char) (tokens : List Token) (clean : Prop) : Prop where
  reads : clean → Reads piece tokens
  breaks : ¬clean → Breaks piece

theorem Reads.settles {piece : List Char} {tokens : List Token} (read : Reads piece tokens) : Settles piece tokens True :=
  ⟨fun _ => read, fun absurd_ => absurd trivial absurd_⟩

theorem Settles.append {left right : List Char} {first second : List Token} {one two : Prop} (settles : Settles left first one)
    (next : Settles right second two) : Settles (left ++ right) (first ++ second) (one ∧ two) := by
  refine ⟨fun both => (settles.reads both.1).append (next.reads both.2), ?_⟩
  intro broken
  by_cases clean : one
  · exact (settles.reads clean).breaks (next.breaks (fun later => broken ⟨clean, later⟩))
  · exact (settles.breaks clean).append right

theorem Settles.congr {piece : List Char} {tokens : List Token} {one two : Prop} (settles : Settles piece tokens one)
    (same : one ↔ two) : Settles piece tokens two :=
  ⟨fun clean => settles.reads (same.2 clean), fun broken => settles.breaks (fun clean => broken (same.1 clean))⟩

theorem lex_of_reads {document : String} {tokens : List Token} (read : Reads document.toList tokens) : lex document = some tokens := by
  unfold lex
  rw [read []]
  change some (tokens.reverse ++ []).reverse = some tokens
  rw [List.append_nil, List.reverse_reverse]

theorem lex_of_breaks {document : String} (breaks : Breaks document.toList) : lex document = none := by
  unfold lex
  rw [breaks []]
  rfl

/-! IRIs. -/

theorem body_iri {iri : List Char} (plain : ∀ c ∈ iri, iriChar c = true) (read : List Char) (out : List Token) :
    iri.foldlM step ⟨.body .iri read, out⟩ = some ⟨.body .iri (iri.reverse ++ read), out⟩ := by
  induction iri generalizing read with
  | nil => rfl
  | cons c rest ih =>
    have legal := plain c List.mem_cons_self
    have escape : c ≠ '\\' := by
      rintro rfl
      revert legal
      decide
    have bracket : c ≠ '>' := by
      rintro rfl
      revert legal
      decide
    have next : step ⟨.body .iri read, out⟩ c = some ⟨.body .iri (c :: read), out⟩ := by
      simp only [step, stepBody, if_neg escape, if_neg bracket, legal, if_true]
    rw [List.foldlM_cons, next]
    simp only [Option.bind_eq_bind, Option.bind_some]
    rw [ih (fun d mem => plain d (List.mem_cons_of_mem _ mem))]
    simp

theorem reads_iri {iri : List Char} (plain : ∀ c ∈ iri, iriChar c = true) :
    Reads ('<' :: iri ++ ['>']) [.iri (String.ofList iri)] := by
  intro out
  have first : step ⟨.gap, out⟩ '<' = some ⟨.body .iri [], out⟩ := rfl
  rw [List.cons_append, List.foldlM_cons, first]
  simp only [Option.bind_eq_bind, Option.bind_some]
  rw [List.foldlM_append, body_iri plain]
  have last : step ⟨.body .iri (iri.reverse ++ []), out⟩ '>' = some ⟨.gap, [Token.iri (String.ofList iri)] ++ out⟩ := by
    have close : step ⟨.body .iri (iri.reverse ++ []), out⟩ '>' = some (emit out (closed .iri (iri.reverse ++ []))) := rfl
    rw [close, List.append_nil, closed, List.reverse_reverse]
    rfl
  simp only [Option.bind_eq_bind, Option.bind_some, List.foldlM_cons, List.foldlM_nil, last]
  rfl

/-! Texts between double quotes. -/

/-- A character with a backslash before it where a text could end, break or escape. -/
def backslashed (c : Char) : List Char :=
  if c = '\\' then ['\\', '\\'] else if c = '"' then ['\\', '"'] else if c = '\n' then ['\\', 'n'] else [c]

theorem body_backslashed {c : Char} (other : c ≠ '\r') (read : List Char) (out : List Token) :
    (backslashed c).foldlM step ⟨.body (.short '"') read, out⟩ = some ⟨.body (.short '"') (c :: read), out⟩ := by
  unfold backslashed
  split_ifs with escape quote line
  · rw [escape]
    rfl
  · rw [quote]
    rfl
  · rw [line]
    rfl
  · simp only [List.foldlM_cons, List.foldlM_nil, step, stepBody, if_neg escape, if_neg quote, line, other, or_self, if_false]
    rfl

theorem body_text {text : List Char} (clean : '\r' ∉ text) (read : List Char) (out : List Token) :
    (text.flatMap backslashed).foldlM step ⟨.body (.short '"') read, out⟩ =
      some ⟨.body (.short '"') (text.reverse ++ read), out⟩ := by
  induction text generalizing read with
  | nil => rfl
  | cons c rest ih =>
    have other : c ≠ '\r' := fun same => clean (same ▸ List.mem_cons_self)
    rw [List.flatMap_cons, List.foldlM_append, body_backslashed other]
    simp only [Option.bind_eq_bind, Option.bind_some]
    rw [ih (fun mem => clean (List.mem_cons_of_mem _ mem))]
    simp

theorem body_breaks {text : List Char} (broken : '\r' ∈ text) (read : List Char) (out : List Token) :
    (text.flatMap backslashed).foldlM step ⟨.body (.short '"') read, out⟩ = none := by
  induction text generalizing read with
  | nil => cases broken
  | cons c rest ih =>
    rw [List.flatMap_cons, List.foldlM_append]
    by_cases return_ : c = '\r'
    · rw [return_]
      rfl
    · rw [body_backslashed return_]
      exact ih ((List.mem_cons.1 broken).resolve_left (Ne.symm return_)) _

/-- Only a quote right after the first one would begin anything but a short text. -/
theorem opened_body {text : List Char} (some_ : text ≠ []) (out : List Token) :
    (text.flatMap backslashed).foldlM step ⟨.opened '"', out⟩ =
      (text.flatMap backslashed).foldlM step ⟨.body (.short '"') [], out⟩ := by
  have first (c : Char) (other : c ≠ '"') : step ⟨.opened '"', out⟩ c = step ⟨.body (.short '"') [], out⟩ c := by
    simp only [step, if_neg other]
  cases text with
  | nil => exact absurd rfl some_
  | cons c rest =>
    obtain ⟨d, more, shape, other⟩ : ∃ d more, backslashed c = d :: more ∧ d ≠ '"' := by
      unfold backslashed
      split_ifs with escape quote line
      · exact ⟨_, _, rfl, by decide⟩
      · exact ⟨_, _, rfl, by decide⟩
      · exact ⟨_, _, rfl, by decide⟩
      · exact ⟨_, _, rfl, quote⟩
    rw [List.flatMap_cons, shape, List.cons_append, List.foldlM_cons, List.foldlM_cons, first d other]

theorem reads_text {text : List Char} (clean : '\r' ∉ text) {gap : Char} (blank_ : blank gap = true) :
    Reads ('"' :: text.flatMap backslashed ++ ['"', gap]) [.text (String.ofList text)] := by
  intro out
  have first : step ⟨.gap, out⟩ '"' = some ⟨.opened '"', out⟩ := rfl
  have passed (tokens : List Token) : between tokens gap = some ⟨.gap, tokens⟩ := by rw [between, if_pos blank_]
  rw [List.cons_append, List.foldlM_cons, first]
  simp only [Option.bind_eq_bind, Option.bind_some]
  by_cases empty : text = []
  · have apart : gap ≠ '"' := by
      rintro rfl
      revert blank_
      decide
    rw [empty]
    simp only [List.flatMap_nil, List.nil_append, List.foldlM_cons, List.foldlM_nil, step, if_true, Option.bind_eq_bind,
      Option.bind_some, if_neg apart, passed]
    rfl
  · rw [List.foldlM_append, opened_body empty, body_text clean, List.append_nil]
    have last : step ⟨.body (.short '"') text.reverse, out⟩ '"' = some (emit out (.text (String.ofList text))) := by
      have close : step ⟨.body (.short '"') text.reverse, out⟩ '"' =
          some (emit out (.text (String.ofList text.reverse.reverse))) := rfl
      rw [close, List.reverse_reverse]
    simp only [Option.bind_eq_bind, Option.bind_some, List.foldlM_cons, List.foldlM_nil, last]
    have after : step (emit out (.text (String.ofList text))) gap = some ⟨.gap, .text (String.ofList text) :: out⟩ := passed _
    rw [after]
    rfl

theorem breaks_text {text : List Char} (broken : '\r' ∈ text) (rest : List Char) :
    Breaks ('"' :: text.flatMap backslashed ++ rest) := by
  intro out
  have first : step ⟨.gap, out⟩ '"' = some ⟨.opened '"', out⟩ := rfl
  have some_ : text ≠ [] := fun empty => by
    rw [empty] at broken
    cases broken
  rw [List.cons_append, List.foldlM_cons, first]
  simp only [Option.bind_eq_bind, Option.bind_some]
  rw [List.foldlM_append, opened_body some_, body_breaks broken]
  rfl

/-- A text in quotes and a gap are read as the text, unless there is a return in it. -/
theorem settles_text (text : List Char) {gap : Char} (blank_ : blank gap = true) :
    Settles ('"' :: text.flatMap backslashed ++ ['"', gap]) [.text (String.ofList text)] ('\r' ∉ text) :=
  ⟨fun clean => reads_text clean blank_, fun broken => breaks_text (not_not.1 broken) _⟩

/-! Prefixed names. -/

theorem run_letters {word : List Char} (letters : ∀ c ∈ word, letter c = true) (read : List Spelt) (out : List Token) :
    word.foldlM step ⟨.run read, out⟩ = some ⟨.run ((word.map (fun c => (c, false))).reverse ++ read), out⟩ := by
  induction word generalizing read with
  | nil => rfl
  | cons c rest ih =>
    have named : nameChar c = true := by
      rw [nameChar, letters c List.mem_cons_self]
      rfl
    have next : step ⟨.run read, out⟩ c = some ⟨.run ((c, false) :: read), out⟩ := by
      simp only [step, named, Bool.true_or, if_true]
    rw [List.foldlM_cons, next]
    simp only [Option.bind_eq_bind, Option.bind_some]
    rw [ih (fun d mem => letters d (List.mem_cons_of_mem _ mem))]
    simp

theorem letter_apart {c d : Char} (is_letter : letter c = true) (other : letter d = false) : c ≠ d := by
  rintro rfl
  rw [is_letter] at other
  cases other

theorem takeWhile_plain {word : List Char} (letters : ∀ c ∈ word, letter c = true) (rest : List Spelt) :
    (word.map (fun c => (c, false)) ++ (':', false) :: rest).takeWhile (fun c => !isColon c) = word.map (fun c => (c, false)) ∧
      (word.map (fun c => (c, false)) ++ (':', false) :: rest).dropWhile (fun c => !isColon c) = (':', false) :: rest := by
  have colonless : ∀ c ∈ word.map (fun c => (c, false)), (!isColon c) = true := by
    intro spelt mem
    obtain ⟨c, inside, rfl⟩ := List.mem_map.1 mem
    have apart := letter_apart (letters c inside) (d := ':') (by decide)
    simp [isColon, apart]
  constructor
  · rw [List.takeWhile_append_of_pos colonless]
    simp [isColon]
  · rw [List.dropWhile_append_of_pos colonless]
    simp [isColon]

theorem percents_letters {word : List Char} (letters : ∀ c ∈ word, letter c = true) :
    percents (word.map (fun c => (c, false))) = true := by
  induction word with
  | nil => rfl
  | cons c rest ih =>
    have apart := letter_apart (letters c List.mem_cons_self) (d := '%') (by decide)
    rw [List.map_cons, percents.eq_4]
    · exact ih (fun d mem => letters d (List.mem_cons_of_mem _ mem))
    · intro _ _ _ _ _ same _
      exact apart (Prod.mk.inj same).1
    · intro same
      exact apart (Prod.mk.inj same).1

theorem chars_plain (word : List Char) : chars (word.map (fun c => (c, false))) = word := by
  rw [chars, List.map_map]
  exact List.map_id' word

theorem digit_of_letter {c : Char} (is_letter : letter c = true) : digit c = false := by
  unfold digit letter within at *
  simp only [List.any_cons, List.any_nil, Bool.or_false, Bool.or_eq_true, Bool.and_eq_true, decide_eq_true_eq] at is_letter
  simp only [List.any_cons, List.any_nil, Bool.or_false, Bool.and_eq_false_iff, decide_eq_false_iff_not]
  omega

/-- Letters, a colon and letters are a prefixed name. -/
theorem classify_name {first : Char} {space word : List Char} (spaced : ∀ c ∈ first :: space, letter c = true)
    (letters : ∀ c ∈ word, letter c = true) :
    classify ((first :: space).map (fun c => (c, false)) ++ (':', false) :: word.map (fun c => (c, false))) =
      some (.name (String.ofList (first :: space)) (String.ofList word)) := by
  have starts := spaced first List.mem_cons_self
  have opening : (digit first || first == '+' || first == '-' || first == '.') = false := by
    have plus := letter_apart starts (d := '+') (by decide)
    have minus := letter_apart starts (d := '-') (by decide)
    have dot := letter_apart starts (d := '.') (by decide)
    simp [digit_of_letter starts, plus, minus, dot]
  have spaceOk : spaceName ((first :: space).map (fun c => (c, false))) = true := by
    have all : ((first :: space).map (fun c => (c, false))).all (fun c => !c.2 && (nameChar c.1 || c.1 == '.')) = true := by
      rw [List.all_eq_true]
      intro spelt mem
      obtain ⟨c, inside, rfl⟩ := List.mem_map.1 mem
      simp [nameChar, spaced c inside]
    have last : ((first :: space).map (fun c => (c, false))).getLast?.any isDot = false := by
      rw [Option.any_eq_false]
      intro spelt found
      obtain ⟨c, inside, rfl⟩ := List.mem_map.1 (List.mem_of_getLast? found)
      have apart := letter_apart (spaced c inside) (d := '.') (by decide)
      simp [isDot, apart]
    rw [List.map_cons] at all last ⊢
    simp only [spaceName, starts, all, last, Bool.not_false, Bool.and_self]
  have wordOk : localName (word.map (fun c => (c, false))) = true := by
    cases word with
    | nil => rfl
    | cons c rest =>
      have all : ((c :: rest).map (fun c => (c, false))).all
          (fun c => c.2 || nameChar c.1 || c.1 == '.' || c.1 == ':' || c.1 == '%') = true := by
        rw [List.all_eq_true]
        intro spelt mem
        obtain ⟨d, inside, rfl⟩ := List.mem_map.1 mem
        simp [nameChar, letters d inside]
      have marks := percents_letters letters
      rw [List.map_cons] at all marks ⊢
      simp only [localName, letters c List.mem_cons_self, all, marks, Bool.or_true, Bool.true_or, Bool.and_self]
  obtain ⟨taken, dropped⟩ := takeWhile_plain spaced (word.map (fun c => (c, false)))
  rw [List.map_cons, List.cons_append] at taken dropped ⊢
  rw [classify.eq_2]
  · simp only [opening, Bool.false_eq_true, if_false, taken, dropped]
    rw [← List.map_cons (f := fun c : Char => (c, false)), spaceOk, wordOk, chars_plain, chars_plain]
    rfl
  · intro _ same _
    have apart := letter_apart starts (d := '_') (by decide)
    exact apart (Prod.mk.inj same).1

/-- A prefixed name of letters, and a gap. -/
theorem reads_name {first : Char} {space word : List Char} (spaced : ∀ c ∈ first :: space, letter c = true)
    (letters : ∀ c ∈ word, letter c = true) {gap : Char} (blank_ : blank gap = true) :
    Reads (first :: space ++ ':' :: word ++ [gap]) [.name (String.ofList (first :: space)) (String.ofList word)] := by
  intro out
  have apart (c : Char) (other : blank c = false) : gap ≠ c := by
    rintro rfl
    rw [blank_] at other
    cases other
  have starts : step ⟨.gap, out⟩ first = some ⟨.run [(first, false)], out⟩ := by
    have is_letter := spaced first List.mem_cons_self
    have named : nameChar first = true := by
      rw [nameChar, is_letter]
      rfl
    have nonblank : blank first = false := by
      have one := letter_apart is_letter (d := ' ') (by decide)
      have two := letter_apart is_letter (d := '\t') (by decide)
      have three := letter_apart is_letter (d := '\n') (by decide)
      have four := letter_apart is_letter (d := '\r') (by decide)
      simp [blank, one, two, three, four]
    have marks : ∀ d ∈ ['#', '<', '"', apostrophe, '@', '^', '.', ';', ',', '[', ']', '(', ')'], first ≠ d := by
      intro d mem
      apply letter_apart is_letter
      revert d
      decide
    simp only [List.mem_cons, List.not_mem_nil, or_false, forall_eq_or_imp, forall_eq] at marks
    simp [step, between, nonblank, named, marks]
  have colon (read : List Spelt) : step ⟨.run read, out⟩ ':' = some ⟨.run ((':', false) :: read), out⟩ := rfl
  have ends (read : List Spelt) : step ⟨.run read, out⟩ gap =
      (endRun out read).bind (fun tokens => some ⟨.gap, tokens⟩) := by
    have named : nameChar gap = false := by
      simp only [blank, Bool.or_eq_true, beq_iff_eq] at blank_
      rcases blank_ with ((rfl | rfl) | rfl) | rfl <;> decide
    have dot := apart '.' (by decide)
    have colon := apart ':' (by decide)
    have percent := apart '%' (by decide)
    have plus := apart '+' (by decide)
    have escape := apart '\\' (by decide)
    simp [step, between, named, dot, colon, percent, plus, escape, blank_]
  have whole := classify_name spaced letters
  have run : (first :: space ++ ':' :: word).foldlM step ⟨.gap, out⟩ =
      some ⟨.run ((first :: space).map (fun c => (c, false)) ++ (':', false) :: word.map (fun c => (c, false))).reverse, out⟩ := by
    rw [List.cons_append, List.foldlM_cons, starts]
    simp only [Option.bind_eq_bind, Option.bind_some]
    rw [List.foldlM_append, run_letters (fun c mem => spaced c (List.mem_cons_of_mem _ mem))]
    simp only [Option.bind_eq_bind, Option.bind_some]
    rw [List.foldlM_cons, colon]
    simp only [Option.bind_eq_bind, Option.bind_some]
    rw [run_letters letters]
    simp
  have last : ∀ read : List Spelt, read.reverse = (first :: space).map (fun c => (c, false)) ++ (':', false) ::
      word.map (fun c => (c, false)) → read.dropWhile isDot = read ∧ read.takeWhile isDot = [] := by
    intro read shape
    have inside : ∀ spelt ∈ read, isDot spelt = false := by
      intro spelt mem
      rw [← List.mem_reverse, shape, List.mem_append, List.mem_cons] at mem
      have plain (cs : List Char) (all : ∀ c ∈ cs, letter c = true) (mem : spelt ∈ cs.map (fun c => (c, false))) :
          isDot spelt = false := by
        obtain ⟨c, inside, rfl⟩ := List.mem_map.1 mem
        have apart := letter_apart (all c inside) (d := '.') (by decide)
        simp [isDot, apart]
      rcases mem with before | rfl | later
      · exact plain _ spaced before
      · rfl
      · exact plain _ letters later
    cases read with
    | nil => exact ⟨rfl, rfl⟩
    | cons spelt rest =>
      have head := inside spelt List.mem_cons_self
      exact ⟨List.dropWhile_cons_of_neg (by simp [head]), List.takeWhile_cons_of_neg (by simp [head])⟩
  obtain ⟨dropped, taken⟩ := last _ (List.reverse_reverse _)
  rw [List.foldlM_append, run]
  simp only [Option.bind_eq_bind, Option.bind_some, List.foldlM_cons, List.foldlM_nil, ends]
  rw [endRun, dropped, taken, List.reverse_reverse, whole]
  rfl

end ToolArtifactRegistry.Library.Turtle
