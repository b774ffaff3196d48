import Mathlib.Data.List.Basic
import Mathlib.Data.List.Infix
import Mathlib.Data.String.Basic

/-! Byte-free string operations, each defined on the list of characters so that it can be
evaluated by the kernel and reasoned about by induction. -/
namespace ToolArtifactRegistry.Library.Text

/-- A statement about the characters of a text is decided by going through them, not through all characters. -/
instance (priority := 2000) decidableChars (chars : List Char) (p : Char → Prop) [DecidablePred p] :
    Decidable (∀ c ∈ chars, p c) := List.decidableBAll p chars

/-- A view of a string without its leading `pre`, when it starts with it. -/
def stripPrefix (text pre : String) : Option String :=
  if pre.toList.isPrefixOf text.toList then
    some (String.ofList (text.toList.drop pre.toList.length))
  else none

def startsWith (text pre : String) : Bool := pre.toList.isPrefixOf text.toList

def trimEndMatches (text : String) (drop : Char → Bool) : String :=
  String.ofList (text.toList.reverse.dropWhile drop).reverse

def trimStartMatches (text : String) (drop : Char → Bool) : String :=
  String.ofList (text.toList.dropWhile drop)

/-- The characters of Unicode's `White_Space` property. -/
def isWhiteSpace (c : Char) : Bool :=
  let n := c.toNat
  (9 ≤ n && n ≤ 13) || n == 32 || n == 0x85 || n == 0xA0 || n == 0x1680 ||
    (0x2000 ≤ n && n ≤ 0x200A) || n == 0x2028 || n == 0x2029 || n == 0x202F ||
    n == 0x205F || n == 0x3000

def trim (text : String) : String :=
  trimEndMatches (trimStartMatches text isWhiteSpace) isWhiteSpace

def asciiLower (c : Char) : Char :=
  if 'A' ≤ c ∧ c ≤ 'Z' then Char.ofNat (c.toNat + 32) else c

def toAsciiLowercase (text : String) : String := String.ofList (text.toList.map asciiLower)

def asciiUpper (c : Char) : Char :=
  if 'a' ≤ c ∧ c ≤ 'z' then Char.ofNat (c.toNat - 32) else c

/-- The pieces of a character list between the separators, always at least one. -/
def piecesOn (sep : Char → Bool) : List Char → List (List Char)
  | [] => [[]]
  | c :: rest =>
    if sep c then [] :: piecesOn sep rest
    else match piecesOn sep rest with
      | [] => [[c]]
      | head :: tail => (c :: head) :: tail

def split (text : String) (sep : Char → Bool) : List String :=
  (piecesOn sep text.toList).map String.ofList

def splitWhitespace (text : String) : List String :=
  ((piecesOn isWhiteSpace text.toList).filter (fun piece => !piece.isEmpty)).map String.ofList

/-- The text before and after the first separator. -/
def splitOnce (text : String) (sep : Char) : Option (String × String) :=
  if sep ∈ text.toList then
    some (String.ofList (text.toList.takeWhile (fun c => c != sep)),
      String.ofList ((text.toList.dropWhile (fun c => c != sep)).drop 1))
  else none

def containsChars (pattern : List Char) : List Char → Bool
  | [] => pattern.isEmpty
  | c :: rest => pattern.isPrefixOf (c :: rest) || containsChars pattern rest

def contains (text pattern : String) : Bool := containsChars pattern.toList text.toList

def replaceChar (text : String) (old : Char) (new : String) : String :=
  String.ofList (text.toList.flatMap (fun c => if c = old then new.toList else [c]))

def join (sep : String) : List String → String
  | [] => ""
  | [only] => only
  | head :: tail => head ++ sep ++ join sep tail

/-- The order of code points, first difference first. -/
def charsLe : List Char → List Char → Bool
  | [], _ => true
  | _ :: _, [] => false
  | c :: left, d :: right => if c = d then charsLe left right else decide (c.toNat < d.toNat)

def le (left right : String) : Bool := charsLe left.toList right.toList

theorem charsLe_total (left right : List Char) : charsLe left right = true ∨ charsLe right left = true := by
  induction left generalizing right with
  | nil => exact Or.inl (by simp [charsLe])
  | cons c rest ih =>
    cases right with
    | nil => exact Or.inr (by simp [charsLe])
    | cons d more =>
      by_cases same : c = d
      · simpa [charsLe, same] using ih more
      · have different : c.toNat ≠ d.toNat := fun equal => same (Char.toNat_inj.mp equal)
        simp only [charsLe, same, Ne.symm same, if_false, decide_eq_true_eq]
        omega

theorem charsLe_trans {left middle right : List Char} (first : charsLe left middle = true)
    (second : charsLe middle right = true) : charsLe left right = true := by
  induction left generalizing middle right with
  | nil => simp [charsLe]
  | cons c rest ih =>
    cases middle with
    | nil => simp [charsLe] at first
    | cons d more =>
      cases right with
      | nil => simp [charsLe] at second
      | cons e last =>
        by_cases cd : c = d
        · by_cases de : d = e
          · simp only [charsLe, cd, de, if_true] at first second ⊢
            exact ih first second
          · simp only [charsLe, cd, de, if_true, if_false] at first second ⊢
            exact second
        · by_cases de : d = e
          · simp only [charsLe, ← de, cd, if_true, if_false] at first second ⊢
            exact first
          · simp only [charsLe, cd, de, if_false, decide_eq_true_eq] at first second
            have ce : c ≠ e := by
              intro equal
              rw [equal] at first
              omega
            simp only [charsLe, ce, if_false, decide_eq_true_eq]
            omega

theorem charsLe_antisymm {left right : List Char} (first : charsLe left right = true) (second : charsLe right left = true) :
    left = right := by
  induction left generalizing right with
  | nil =>
    cases right with
    | nil => rfl
    | cons d more => simp [charsLe] at second
  | cons c rest ih =>
    cases right with
    | nil => simp [charsLe] at first
    | cons d more =>
      by_cases same : c = d
      · subst same
        simp only [charsLe, if_true] at first second
        rw [ih first second]
      · simp only [charsLe, same, Ne.symm same, if_false, decide_eq_true_eq] at first second
        omega

theorem le_antisymm_text {left right : String} (first : le left right = true) (second : le right left = true) :
    left = right := String.toList_inj.mp (charsLe_antisymm first second)

theorem charsLe_refl (chars : List Char) : charsLe chars chars = true := by
  induction chars with
  | nil => rfl
  | cons c rest ih => rw [charsLe, if_pos rfl, ih]

/-- Of two texts one comes first. -/
theorem charsLe_swap {left right : List Char} (apart : left ≠ right) : charsLe left right = !charsLe right left := by
  cases before : charsLe right left with
  | true =>
    rw [Bool.not_true, ← Bool.not_eq_true]
    exact fun after => apart (charsLe_antisymm after before)
  | false =>
    rcases charsLe_total left right with first | second
    · exact first
    · rw [before] at second
      cases second

def digits? : Nat → List Char → Option Nat
  | total, [] => some total
  | total, c :: rest => if c.isDigit then digits? (total * 10 + (c.toNat - '0'.toNat)) rest else none

/-- A decimal that fits in 64 bits without a sign; a leading plus is allowed. -/
def parseU64 (text : String) : Option Nat :=
  let digits : Option Nat :=
    match text.toList with
    | '+' :: d :: rest => digits? 0 (d :: rest)
    | d :: rest => digits? 0 (d :: rest)
    | [] => none
  digits.filter (fun n => decide (n < 2 ^ 64))

/-- A decimal with an optional sign that fits in 64 bits. -/
def parseI64 (text : String) : Option Int :=
  let signed : Option Int :=
    match text.toList with
    | '-' :: d :: rest => (digits? 0 (d :: rest)).map (fun n => -(n : Int))
    | '+' :: d :: rest => (digits? 0 (d :: rest)).map (fun n => (n : Int))
    | d :: rest => (digits? 0 (d :: rest)).map (fun n => (n : Int))
    | [] => none
  signed.filter (fun n => decide (-9223372036854775808 ≤ n ∧ n ≤ 9223372036854775807))

theorem piecesOn_ne_nil (sep : Char → Bool) (text : List Char) : piecesOn sep text ≠ [] := by
  cases text with
  | nil => simp [piecesOn]
  | cons c rest =>
    simp only [piecesOn]
    split
    · simp
    · split <;> simp

theorem piecesOn_append_sep (sep : Char → Bool) (left right : List Char) (c : Char) (at_ : sep c = true) :
    piecesOn sep (left ++ c :: right) = piecesOn sep left ++ piecesOn sep right := by
  induction left with
  | nil => simp [piecesOn, at_]
  | cons d rest ih =>
    by_cases hit : sep d = true
    · simp [piecesOn, hit, ih]
    · have some_ := piecesOn_ne_nil sep rest
      cases shape : piecesOn sep rest with
      | nil => exact absurd shape some_
      | cons head tail => simp [piecesOn, hit, ih, shape]

/-- A text with no separator in it is one piece. -/
theorem piecesOn_of_forall (sep : Char → Bool) (text : List Char) (clean : ∀ c ∈ text, sep c = false) :
    piecesOn sep text = [text] := by
  induction text with
  | nil => rfl
  | cons c rest ih =>
    have first := clean c (by simp)
    have later := ih (fun d mem => clean d (by simp [mem]))
    simp [piecesOn, first, later]

@[simp] theorem ofList_toList_eq (text : String) : String.ofList text.toList = text := by simp

theorem stripPrefix_eq_some {text pre rest : String} : stripPrefix text pre = some rest ↔ text = pre ++ rest := by
  unfold stripPrefix
  constructor
  · intro stripped
    split at stripped
    next hit =>
      have split_ := List.prefix_iff_eq_append.mp (List.isPrefixOf_iff_prefix.mp hit)
      rw [← Option.some.inj stripped, ← String.toList_inj, String.toList_append, String.toList_ofList]
      exact split_.symm
    next => cases stripped
  · intro whole
    rw [whole, String.toList_append, if_pos (by simp), List.drop_left, ofList_toList_eq]

@[simp] theorem stripPrefix_append (pre rest : String) : stripPrefix (pre ++ rest) pre = some rest :=
  stripPrefix_eq_some.mpr rfl

theorem startsWith_iff {text pre : String} : startsWith text pre = true ↔ ∃ rest, text = pre ++ rest := by
  unfold startsWith
  rw [List.isPrefixOf_iff_prefix]
  constructor
  · intro hit
    obtain ⟨rest, whole⟩ := hit
    exact ⟨String.ofList rest, by rw [← String.toList_inj, String.toList_append, String.toList_ofList, whole]⟩
  · intro hit
    obtain ⟨rest, whole⟩ := hit
    rw [whole, String.toList_append]
    exact List.prefix_append _ _

def eqIgnoreAsciiCase (left right : String) : Bool := toAsciiLowercase left == toAsciiLowercase right

/-- A text with a character in it and no white space. -/
def Word (text : String) : Prop := text ≠ "" ∧ ∀ c ∈ text.toList, isWhiteSpace c = false

instance (text : String) : Decidable (Word text) :=
  decidable_of_iff (text ≠ "" ∧ text.toList.all (fun c => !isWhiteSpace c) = true) (by simp [Word])

theorem Word.pieces {text : String} (word : Word text) :
    ((piecesOn isWhiteSpace text.toList).filter (fun piece => !piece.isEmpty)).map String.ofList = [text] := by
  have some_ : text.toList ≠ [] := fun none_ => word.1 (by
    rw [← ofList_toList_eq text, none_])
  simp [piecesOn_of_forall _ _ word.2, some_]

theorem splitWhitespace_single {text : String} (word : Word text) : splitWhitespace text = [text] := word.pieces

theorem splitWhitespace_join {words : List String} (each : ∀ word ∈ words, Word word) :
    splitWhitespace (join " " words) = words := by
  induction words with
  | nil => decide
  | cons head tail ih =>
    have first := each head (by simp)
    have later := ih (fun word mem => each word (List.mem_cons_of_mem _ mem))
    cases tail with
    | nil => exact splitWhitespace_single first
    | cons next rest =>
      have letters : (join " " (head :: next :: rest)).toList =
          head.toList ++ ' ' :: (join " " (next :: rest)).toList := by
        simp [join, String.toList_append]
      unfold splitWhitespace at later ⊢
      rw [letters, piecesOn_append_sep _ _ _ ' ' (by decide), List.filter_append, List.map_append, first.pieces, later]
      rfl

/-! The pieces of a text between separators. -/

/-- No piece holds a separator. -/
theorem not_sep_of_mem_piece {sep : Char → Bool} {text piece : List Char} (mem : piece ∈ piecesOn sep text) {c : Char}
    (inside : c ∈ piece) : sep c = false := by
  induction text generalizing piece with
  | nil =>
    rw [piecesOn, List.mem_singleton] at mem
    rw [mem] at inside
    cases inside
  | cons d rest ih =>
    rw [piecesOn] at mem
    split at mem
    · rcases List.mem_cons.1 mem with empty | later
      · rw [empty] at inside
        cases inside
      · exact ih later inside
    · rename_i letter
      split at mem
      · rename_i none_
        exact absurd none_ (piecesOn_ne_nil sep rest)
      · rename_i head tail shape
        rcases List.mem_cons.1 mem with first | later
        · rw [first] at inside
          rcases List.mem_cons.1 inside with same | deeper
          · rw [same]
            exact Bool.not_eq_true _ ▸ letter
          · exact ih (shape ▸ List.mem_cons_self) deeper
        · exact ih (shape ▸ List.mem_cons_of_mem _ later) inside

/-- A text that starts with no separator has a piece with something in it. -/
theorem exists_piece {sep : Char → Bool} {c : Char} (letter : sep c = false) (rest : List Char) :
    ∃ piece ∈ piecesOn sep (c :: rest), piece ≠ [] := by
  rw [piecesOn, if_neg (by simp [letter])]
  split
  · exact ⟨[c], List.mem_singleton.2 rfl, by simp⟩
  · rename_i head tail _
    exact ⟨c :: head, List.mem_cons_self, by simp⟩

end ToolArtifactRegistry.Library.Text
