import Mathlib.Data.List.Forall2
import ToolArtifactRegistry.Library.Percent
import ToolArtifactRegistry.Library.Text

/-! Pairs of names and values as a query string or a form writes them. -/
namespace ToolArtifactRegistry.Library.Forms

open Percent

/-- The value of a hexadecimal digit, given as a byte. -/
def digitOf (byte : UInt8) : Option Nat := hexValue (Char.ofNat byte.toNat)

/-- Escapes undone; a percent sign that no two digits follow stays as it is. -/
def unescape : List UInt8 → List UInt8
  | [] => []
  | 37 :: high :: low :: rest =>
    match digitOf high, digitOf low with
    | some h, some l => UInt8.ofNat (h * 16 + l) :: unescape rest
    | _, _ => 37 :: unescape (high :: low :: rest)
  | byte :: rest => byte :: unescape rest

def spaced (byte : UInt8) : UInt8 := if byte = 43 then 32 else byte

/-- A name or a value; `lossy` reads bytes as text, whatever they are. -/
def decode (lossy : List UInt8 → String) (bytes : List UInt8) : String := lossy (unescape (bytes.map spaced))

def pairOf (lossy : List UInt8 → String) (piece : List UInt8) : String × String :=
  (decode lossy (piece.takeWhile (fun byte => byte != 61)),
    decode lossy ((piece.dropWhile (fun byte => byte != 61)).drop 1))

/-- The pairs of a query, in their order; empty pieces between the ampersands are none. -/
def parse (lossy : List UInt8 → String) (query : List UInt8) : List (String × String) :=
  ((query.splitOn 38).filter (fun piece => !piece.isEmpty)).map (pairOf lossy)

/-- The value of a field that may be given once; a second value is an error. -/
def field (pairs : List (String × String)) (key : String) : Except String (Option String) :=
  match pairs.filter (fun pair => pair.1 == key) with
  | [] => .ok none
  | [pair] => .ok (some pair.2)
  | _ => .error ("duplicate field " ++ key)

/-- A field that reads as a value is one of the pairs. -/
theorem field_mem {pairs : List (String × String)} {key value : String} (read : field pairs key = .ok (some value)) :
    (key, value) ∈ pairs := by
  unfold field at read
  split at read
  · cases read
  · rename_i pair only
    have mem : pair ∈ pairs.filter (fun pair => pair.1 == key) := only ▸ List.mem_singleton_self pair
    obtain ⟨here, named⟩ := List.mem_filter.1 mem
    have value_eq : pair.2 = value := Option.some.inj (Except.ok.inj read)
    rw [← value_eq, ← beq_iff_eq.1 named]
    exact here
  · cases read

/-! Fields as a form spells them: any escaping that reads back as the fields, in the order of the form. -/

/-- A piece of a form spells a field: its name and its value are escaped, and none of the marks of the form is left. -/
def FieldOf (piece : List UInt8) (pair : String × String) : Prop :=
  ∃ name value, piece = name ++ 61 :: value ∧ 38 ∉ piece ∧ 61 ∉ name ∧
    unescape (name.map spaced) = bytesOf pair.1 ∧ unescape (value.map spaced) = bytesOf pair.2

/-- The bytes of a form with these fields. -/
def FormOf (form : List UInt8) (fields : List (String × String)) : Prop :=
  fields ≠ [] ∧ ∃ pieces, form = [38].intercalate pieces ∧ List.Forall₂ FieldOf pieces fields

section Unescaping

attribute [local simp] unescape

theorem unescape_other {byte : UInt8} (other : byte ≠ 37) (rest : List UInt8) :
    unescape (byte :: rest) = byte :: unescape rest := by
  rw [unescape]
  exact fun _ _ _ percent _ => other percent

theorem unescape_undigits {high low : UInt8} {rest : List UInt8}
    (undigits : digitOf high = none ∨ digitOf low = none) :
    unescape (37 :: high :: low :: rest) = 37 :: unescape (high :: low :: rest) := by
  rw [unescape]
  split
  · next first second =>
    rcases undigits with none_ | none_
    · rw [none_] at first
      cases first
    · rw [none_] at second
      cases second
  · rfl

/-- An escape does not reach across an ampersand. -/
theorem unescape_append (left right : List UInt8) :
    unescape (left ++ 38 :: right) = unescape left ++ 38 :: unescape right := by
  have mark : digitOf 38 = none := by decide
  induction left using unescape.induct with
  | case1 => exact unescape_other (by decide) right
  | case2 high low rest h l first second ih =>
    rw [List.cons_append, List.cons_append, List.cons_append, unescape, first, second]
    dsimp only
    rw [ih, unescape, first, second]
    rfl
  | case3 high low rest undigits ih =>
    have missing : digitOf high = none ∨ digitOf low = none := by
      cases first : digitOf high with
      | none => exact Or.inl rfl
      | some h =>
        cases second : digitOf low with
        | none => exact Or.inr rfl
        | some l => exact (undigits h l first second).elim
    calc unescape (37 :: high :: low :: (rest ++ 38 :: right))
        = 37 :: unescape (high :: low :: rest ++ 38 :: right) := unescape_undigits missing
      _ = 37 :: unescape (high :: low :: rest) ++ 38 :: unescape right := congrArg (List.cons 37) ih
      _ = unescape (37 :: high :: low :: rest) ++ 38 :: unescape right := by rw [unescape_undigits missing]
  | case4 byte rest short ih =>
    by_cases percent : byte = 37
    · -- fewer than two bytes follow the percent sign
      subst percent
      match rest, short, ih with
      | [], _, _ =>
        cases right with
        | nil => rfl
        | cons next more =>
          have other := @unescape_other 38 (by decide) (next :: more)
          exact (unescape_undigits (Or.inl mark)).trans (congrArg (List.cons 37) other)
      | [only], _, ih =>
        have whole := @unescape_undigits only 38 right (Or.inr mark)
        exact whole.trans (congrArg (List.cons 37) ih)
      | high :: low :: more, short, _ => exact (short high low more rfl rfl).elim
    · rw [List.cons_append, unescape_other percent, unescape_other percent, ih, List.cons_append]

theorem length_unescape_le (bytes : List UInt8) : (unescape bytes).length ≤ bytes.length := by
  induction bytes using unescape.induct with
  | case1 => exact le_rfl
  | case2 high low rest h l first second ih =>
    rw [unescape, first, second]
    simp only [List.length_cons]
    omega
  | case3 high low rest undigits ih =>
    rw [unescape]
    split
    · next h l first second => exact (undigits h l first second).elim
    · simp only [List.length_cons] at ih ⊢
      omega
  | case4 byte rest short ih =>
    rw [unescape]
    · simp only [List.length_cons]
      omega
    · exact short

end Unescaping

section Bytes

theorem bytesOf_append (left right : String) : bytesOf (left ++ right) = bytesOf left ++ bytesOf right := by
  rw [bytesOf, String.toList_append, List.flatMap_append]
  rfl

theorem bytesOf_inj {left right : String} (same : bytesOf left = bytesOf right) : left = right := by
  have texts := congrArg textOf same
  rw [textOf_bytesOf, textOf_bytesOf] at texts
  exact Option.some.inj texts

/-- A byte of ASCII is written for its own character only. -/
theorem ascii_of_mem {c : Char} {byte : UInt8} (ascii : byte.toNat < 128) (mem : byte ∈ String.utf8EncodeChar c) :
    c = Char.ofNat byte.toNat := by
  unfold String.utf8EncodeChar at mem
  dsimp only at mem
  split at mem
  · next small =>
    have value : byte = UInt8.ofNat c.val.toNat := List.mem_singleton.1 mem
    have same : byte.toNat = c.toNat := by
      rw [value, UInt8.toNat_ofNat']
      exact Nat.mod_eq_of_lt (by omega)
    rw [same, Char.ofNat_toNat]
  · exfalso
    split at mem
    · simp only [List.mem_cons, List.not_mem_nil, or_false] at mem
      rcases mem with rfl | rfl <;> simp only [UInt8.toNat_ofNat'] at ascii <;> omega
    · split at mem
      · simp only [List.mem_cons, List.not_mem_nil, or_false] at mem
        rcases mem with rfl | rfl | rfl <;> simp only [UInt8.toNat_ofNat'] at ascii <;> omega
      · simp only [List.mem_cons, List.not_mem_nil, or_false] at mem
        rcases mem with rfl | rfl | rfl | rfl <;> simp only [UInt8.toNat_ofNat'] at ascii <;> omega

/-- Pluses are read as spaces before the bytes of a text or after. -/
theorem bytesOf_spaced (text : String) : bytesOf (Text.replaceChar text '+' " ") = (bytesOf text).map spaced := by
  rw [Text.replaceChar, bytesOf, String.toList_ofList, bytesOf, List.map_flatMap, List.flatMap_assoc]
  congr 1
  funext c
  by_cases plus : c = '+'
  · subst plus
    rfl
  · have kept : (String.utf8EncodeChar c).map spaced = String.utf8EncodeChar c := by
      refine (List.map_congr_left (fun byte mem => ?_)).trans (List.map_id _)
      unfold spaced
      split
      · next mark =>
        subst mark
        exact (plus (ascii_of_mem (by decide) mem)).elim
      · rfl
    rw [if_neg plus, kept, List.flatMap_cons, List.flatMap_nil, List.append_nil]

end Bytes

section Reading

variable {lossy : List UInt8 → String} {form : List UInt8} {fields : List (String × String)}

/-- Each of two lists whose members are paired in order has a partner for the members of the other. -/
theorem partner {α β : Type} {related : α → β → Prop} {left : List α} {right : List β}
    (each : List.Forall₂ related left right) :
    (∀ a ∈ left, ∃ b ∈ right, related a b) ∧ ∀ b ∈ right, ∃ a ∈ left, related a b := by
  induction each with
  | nil => exact ⟨fun _ mem => absurd mem List.not_mem_nil, fun _ mem => absurd mem List.not_mem_nil⟩
  | @cons a b left right first _ ih =>
    constructor
    · intro member mem
      rcases List.mem_cons.1 mem with rfl | later
      · exact ⟨b, List.mem_cons_self, first⟩
      · obtain ⟨other, held, pair⟩ := ih.1 member later
        exact ⟨other, List.mem_cons_of_mem _ held, pair⟩
    · intro member mem
      rcases List.mem_cons.1 mem with rfl | later
      · exact ⟨a, List.mem_cons_self, first⟩
      · obtain ⟨other, held, pair⟩ := ih.2 member later
        exact ⟨other, List.mem_cons_of_mem _ held, pair⟩

/-- What stands before the first mark and behind it. -/
theorem halves {mark : UInt8} {name : List UInt8} (unmarked : mark ∉ name) (value : List UInt8) :
    (name ++ mark :: value).takeWhile (fun byte => byte != mark) = name ∧
      ((name ++ mark :: value).dropWhile (fun byte => byte != mark)).drop 1 = value := by
  have plain : ∀ byte ∈ name, (byte != mark) = true := fun byte mem => bne_iff_ne.2 (fun same => unmarked (same ▸ mem))
  constructor
  · rw [List.takeWhile_append_of_pos plain, List.takeWhile_cons, bne_self_eq_false, if_neg Bool.false_ne_true,
      List.append_nil]
  · rw [List.dropWhile_append_of_pos plain, List.dropWhile_cons, bne_self_eq_false, if_neg Bool.false_ne_true,
      List.drop_one, List.tail_cons]

theorem halves_inj {mark : UInt8} {name label value other : List UInt8} (unmarked : mark ∉ name) (free : mark ∉ label)
    (same : name ++ mark :: value = label ++ mark :: other) : name = label ∧ value = other := by
  have left := halves unmarked value
  have right := halves free other
  rw [same] at left
  exact ⟨left.1.symm.trans right.1, left.2.symm.trans right.2⟩

theorem pairOf_field {piece : List UInt8} {pair : String × String} (reads : ∀ text, lossy (bytesOf text) = text)
    (spelled : FieldOf piece pair) : pairOf lossy piece = pair := by
  obtain ⟨name, value, rfl, _, unmarked, named, valued⟩ := spelled
  obtain ⟨before, behind⟩ := halves unmarked value
  rw [pairOf, before, behind, decode, decode, named, valued, reads, reads]

/-- A form is read as its fields. -/
theorem parse_form (reads : ∀ text, lossy (bytesOf text) = text) (spelled : FormOf form fields) :
    parse lossy form = fields := by
  obtain ⟨some_, pieces, rfl, each⟩ := spelled
  have pieces_ne : pieces ≠ [] := by
    rintro rfl
    exact some_ (List.forall₂_nil_left_iff.1 each)
  have unmarked : ∀ piece ∈ pieces, 38 ∉ piece := by
    intro piece mem
    obtain ⟨_, _, _, _, _, free, _⟩ := (partner each).1 piece mem
    exact free
  have full : pieces.filter (fun piece => !piece.isEmpty) = pieces := by
    refine List.filter_eq_self.2 (fun piece mem => ?_)
    obtain ⟨_, _, name, value, rfl, _⟩ := (partner each).1 piece mem
    cases name <;> rfl
  rw [parse, List.splitOn_intercalate 38 unmarked pieces_ne, full]
  clear some_ pieces_ne unmarked full
  induction each with
  | nil => rfl
  | cons spelled _ ih => rw [List.map_cons, pairOf_field reads spelled, ih]

/-- Behind the name that opens a form stand the value of the first field and, past an ampersand, the other fields. -/
theorem form_opening {name rest : List UInt8} (unmarked : 61 ∉ name) (spelled : FormOf (name ++ 61 :: rest) fields) :
    ∃ first others more, fields = first :: others ∧ unescape (name.map spaced) = bytesOf first.1 ∧
      unescape (rest.map spaced) = bytesOf first.2 ++ more ∧
      (others = [] ∧ more = [] ∨ others ≠ [] ∧ ∃ tail, more = 38 :: tail) := by
  obtain ⟨some_, pieces, opens, each⟩ := spelled
  cases each with
  | nil => exact (some_ rfl).elim
  | @cons piece first pieces others spells each =>
    obtain ⟨label, value, rfl, _, free, named, valued⟩ := spells
    cases each with
    | nil =>
      rw [List.intercalate_singleton] at opens
      obtain ⟨rfl, rfl⟩ := halves_inj unmarked free opens
      exact ⟨first, [], [], rfl, named, by rw [valued, List.append_nil], Or.inl ⟨rfl, rfl⟩⟩
    | @cons next second pieces others _ _ =>
      rw [List.intercalate_cons_of_ne_nil (List.cons_ne_nil _ _), List.append_assoc, List.append_assoc, List.cons_append] at opens
      obtain ⟨rfl, rfl⟩ := halves_inj unmarked free opens
      have read : unescape ((value ++ 38 :: [38].intercalate (next :: pieces)).map spaced) =
          bytesOf first.2 ++ 38 :: unescape (([38].intercalate (next :: pieces)).map spaced) := by
        rw [← valued, List.map_append, List.map_cons]
        exact unescape_append (value.map spaced) _
      exact ⟨first, second :: others, _, rfl, named, read, Or.inr ⟨List.cons_ne_nil _ _, _, rfl⟩⟩

theorem length_le_intercalate {piece : List UInt8} {pieces : List (List UInt8)} (mem : piece ∈ pieces) (sep : List UInt8) :
    piece.length ≤ (sep.intercalate pieces).length := by
  induction pieces with
  | nil => exact absurd mem List.not_mem_nil
  | cons head rest ih =>
    cases rest with
    | nil =>
      rw [List.intercalate_singleton, List.mem_singleton.1 mem]
    | cons next rest =>
      rw [List.intercalate_cons_cons, List.length_append, List.length_append]
      rcases List.mem_cons.1 mem with rfl | later
      · omega
      · have within := ih later
        omega

/-- The value of a field is shorter than the form. -/
theorem value_shorter {pair : String × String} (spelled : FormOf form fields) (mem : pair ∈ fields) :
    (bytesOf pair.2).length < form.length := by
  obtain ⟨_, pieces, rfl, each⟩ := spelled
  obtain ⟨piece, held, name, value, rfl, _, _, _, valued⟩ := (partner each).2 pair mem
  have within := length_le_intercalate held [38]
  have read := length_unescape_le (value.map spaced)
  rw [valued, List.length_map] at read
  rw [List.length_append, List.length_cons] at within
  omega

end Reading

end ToolArtifactRegistry.Library.Forms
