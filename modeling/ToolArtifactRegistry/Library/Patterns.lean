import Mathlib.Data.List.Infix

/-! Regular expressions: what they match, how a text of characters, escapes, groups, alternatives and repetitions is
read as one, and the text that is read as nothing but given characters. Classes and counts are not read. -/
namespace ToolArtifactRegistry.Library.Patterns

inductive Regex where
  | empty
  | char (c : Char)
  | any
  | start
  | finish
  | seq (first second : Regex)
  | alt (first second : Regex)
  | optional (body : Regex)
  | star (body : Regex)
  | plus (body : Regex)
  | group (body : Regex)
  deriving DecidableEq

/-- A regular expression matches a part of a text, between what stands before and behind it. -/
inductive Matches : Regex → List Char → List Char → List Char → Prop
  | empty {before after : List Char} : Matches .empty before [] after
  | char {before after : List Char} (c : Char) : Matches (.char c) before [c] after
  | any {before after : List Char} {c : Char} (line : c ≠ '\n') : Matches .any before [c] after
  | start {after : List Char} : Matches .start [] [] after
  | finish {before : List Char} : Matches .finish before [] []
  | seq {first second : Regex} {before left right after : List Char} (one : Matches first before left (right ++ after))
      (two : Matches second (before ++ left) right after) : Matches (.seq first second) before (left ++ right) after
  | left {first second : Regex} {before here after : List Char} (one : Matches first before here after) :
      Matches (.alt first second) before here after
  | right {first second : Regex} {before here after : List Char} (two : Matches second before here after) :
      Matches (.alt first second) before here after
  | absent {body : Regex} {before after : List Char} : Matches (.optional body) before [] after
  | present {body : Regex} {before here after : List Char} (one : Matches body before here after) :
      Matches (.optional body) before here after
  | done {body : Regex} {before after : List Char} : Matches (.star body) before [] after
  | again {body : Regex} {before left right after : List Char} (one : Matches body before left (right ++ after))
      (rest : Matches (.star body) (before ++ left) right after) : Matches (.star body) before (left ++ right) after
  | plus {body : Regex} {before left right after : List Char} (one : Matches body before left (right ++ after))
      (rest : Matches (.star body) (before ++ left) right after) : Matches (.plus body) before (left ++ right) after
  | group {body : Regex} {before here after : List Char} (one : Matches body before here after) :
      Matches (.group body) before here after

/-- Somewhere in a text there is a match. -/
def Regex.Found (regex : Regex) (text : List Char) : Prop :=
  ∃ before here after, text = before ++ here ++ after ∧ Matches regex before here after

/-! Reading. -/

/-- The characters that do not stand for themselves. -/
def metas : List Char :=
  ['\\', '.', '+', '*', '?', '(', ')', '|', '[', ']', Char.ofNat 123, Char.ofNat 125, '^', '$']

/-- A group that is open: its alternatives so far, and the pieces of the last, each list from its end. -/
structure Level where
  branches : List Regex
  pieces : List Regex

structure Reader where
  escaped : Bool
  level : Level
  outer : List Level

def sequence (pieces : List Regex) : Regex := pieces.foldr .seq .empty

def Level.close (level : Level) : Regex := level.branches.foldl (fun regex branch => .alt branch regex) (sequence level.pieces.reverse)

def Reader.push (reader : Reader) (piece : Regex) : Reader :=
  { reader with escaped := false, level := { reader.level with pieces := piece :: reader.level.pieces } }

/-- A repetition repeats the last piece, which is no repetition itself. -/
def Reader.repeated (reader : Reader) (operator : Regex → Regex) : Option Reader :=
  match reader.level.pieces with
  | [] | .optional _ :: _ | .star _ :: _ | .plus _ :: _ => none
  | last :: pieces => some { reader with level := { reader.level with pieces := operator last :: pieces } }

def Reader.step (reader : Reader) (c : Char) : Option Reader :=
  if reader.escaped then if c ∈ metas then some (reader.push (.char c)) else none
  else if c ∉ metas then some (reader.push (.char c))
  else if c = '\\' then some { reader with escaped := true }
  else if c = '.' then some (reader.push .any)
  else if c = '^' then some (reader.push .start)
  else if c = '$' then some (reader.push .finish)
  else if c = '?' then reader.repeated .optional
  else if c = '*' then reader.repeated .star
  else if c = '+' then reader.repeated .plus
  else if c = '|' then
    some { reader with level := ⟨sequence reader.level.pieces.reverse :: reader.level.branches, []⟩ }
  else if c = '(' then some { reader with level := ⟨[], []⟩, outer := reader.level :: reader.outer }
  else if c = ')' then
    match reader.outer with
    | [] => none
    | level :: outer => some { reader with level := { level with pieces := .group reader.level.close :: level.pieces }, outer := outer }
  else if c = ']' ∨ c = Char.ofNat 125 then some (reader.push (.char c))
  else none

/-- The regular expression of a text. -/
def parse (text : List Char) : Option Regex := do
  let reader ← text.foldlM Reader.step ⟨false, ⟨[], []⟩, []⟩
  if reader.escaped || !reader.outer.isEmpty then none else some reader.level.close

/-- Every character that does not stand for itself has a backslash before it. -/
def escape (text : List Char) : List Char := text.flatMap (fun c => if c ∈ metas then ['\\', c] else [c])

example : (parse ['a', '|', '(', 'b', '.', ')', '*']) =
    some (.alt (.seq (.char 'a') .empty) (.seq (.star (.group (.seq (.char 'b') (.seq .any .empty)))) .empty)) := by decide

section Escapes

theorem step_other {reader : Reader} {c : Char} (open_ : reader.escaped = false) (other : c ∉ metas) :
    reader.step c = some (reader.push (.char c)) := by
  unfold Reader.step
  rw [open_, if_neg Bool.false_ne_true, if_pos other]

theorem step_backslash {reader : Reader} (open_ : reader.escaped = false) :
    reader.step '\\' = some { reader with escaped := true } := by
  unfold Reader.step
  rw [open_, if_neg Bool.false_ne_true, if_neg (by decide), if_pos rfl]

theorem step_meta {reader : Reader} {c : Char} (escaped : reader.escaped = true) (held : c ∈ metas) :
    reader.step c = some (reader.push (.char c)) := by
  unfold Reader.step
  rw [escaped, if_pos rfl, if_pos held]

/-- An escaped text adds its characters, one piece each. -/
theorem run_escape (text : List Char) (reader : Reader) (open_ : reader.escaped = false) :
    (escape text).foldlM Reader.step reader =
      some { reader with level := { reader.level with pieces := (text.map Regex.char).reverse ++ reader.level.pieces } } := by
  induction text generalizing reader with
  | nil => rfl
  | cons c rest ih =>
    have next : (if c ∈ metas then ['\\', c] else [c]).foldlM Reader.step reader = some (reader.push (.char c)) := by
      split
      · next held =>
        have second : Reader.step { reader with escaped := true } c = some (reader.push (.char c)) := step_meta rfl held
        rw [List.foldlM_cons, step_backslash open_]
        simp only [Option.bind_eq_bind, Option.bind_some, List.foldlM_cons, List.foldlM_nil, second]
        rfl
      · next other =>
        rw [List.foldlM_cons, step_other open_ other]
        rfl
    rw [escape, List.flatMap_cons, List.foldlM_append, next]
    simp only [Option.bind_eq_bind, Option.bind_some]
    rw [← escape, ih (reader.push (.char c)) rfl, List.map_cons, List.reverse_cons, List.append_assoc]
    simp only [Reader.push, List.singleton_append, open_]

/-- An escaped text is read as its characters in order. -/
theorem parse_escape (text : List Char) : parse (escape text) = some (sequence (text.map Regex.char)) := by
  unfold parse
  rw [run_escape text _ rfl]
  simp [Level.close]

theorem matches_literal {text before here after : List Char} :
    Matches (sequence (text.map Regex.char)) before here after ↔ here = text := by
  induction text generalizing before here with
  | nil =>
    constructor
    · intro matched
      cases matched
      rfl
    · rintro rfl
      exact .empty
  | cons c rest ih =>
    constructor
    · intro matched
      cases matched with
      | seq one two =>
        cases one
        rw [ih.1 two]
        rfl
    · rintro rfl
      exact @Matches.seq _ _ _ [c] rest _ (.char c) (ih.2 rfl)

/-- Characters in order are found in the texts they are a part of. -/
theorem found_literal (needle text : List Char) : (sequence (needle.map Regex.char)).Found text ↔ needle <:+: text := by
  constructor
  · rintro ⟨before, here, after, rfl, matched⟩
    rw [matches_literal.1 matched]
    exact ⟨before, after, rfl⟩
  · rintro ⟨before, after, rfl⟩
    exact ⟨before, needle, after, rfl, matches_literal.2 rfl⟩

end Escapes

end ToolArtifactRegistry.Library.Patterns
