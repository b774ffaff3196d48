import Mathlib.Data.List.Basic

/-! Percent-encoding: the bytes of a text, those not kept as they are written in hexadecimal. -/
namespace ToolArtifactRegistry.Library.Percent

/-- The bytes of a text in UTF-8. -/
def bytesOf (text : String) : List UInt8 := text.toList.flatMap String.utf8EncodeChar

/-- The text some bytes are, where they are UTF-8. -/
def textOf (bytes : List UInt8) : Option String :=
  bytes.toByteArray.utf8Decode?.map (fun chars => String.ofList chars.toList)

theorem textOf_bytesOf (text : String) : textOf (bytesOf text) = some text := by
  have decoded : (text.toList.flatMap String.utf8EncodeChar).toByteArray.utf8Decode? = some text.toList.toArray :=
    List.utf8Decode?_utf8Encode
  rw [textOf, bytesOf, decoded, Option.map_some, List.toList_toArray, String.ofList_toList]

def hexChar (n : Nat) : Char := Char.ofNat (if n < 10 then 48 + n else 55 + n)

def hexValue (c : Char) : Option Nat :=
  if 48 ≤ c.toNat ∧ c.toNat ≤ 57 then some (c.toNat - 48)
  else if 65 ≤ c.toNat ∧ c.toNat ≤ 70 then some (c.toNat - 55)
  else if 97 ≤ c.toNat ∧ c.toNat ≤ 102 then some (c.toNat - 87)
  else none

theorem hexValue_hexChar {n : Nat} (small : n < 16) : hexValue (hexChar n) = some n := by
  have all : ∀ n < 16, hexValue (hexChar n) = some n := by decide
  exact all n small

def encodeByte (kept : UInt8 → Bool) (byte : UInt8) : List Char :=
  if kept byte then [Char.ofNat byte.toNat] else ['%', hexChar (byte.toNat / 16), hexChar (byte.toNat % 16)]

def encode (kept : UInt8 → Bool) (text : String) : String := String.ofList ((bytesOf text).flatMap (encodeByte kept))

/-- The bytes a text stands for; a percent sign that no two digits follow is a byte of its own. -/
def decodeBytes : List Char → List UInt8
  | [] => []
  | '%' :: high :: low :: rest =>
    match hexValue high, hexValue low with
    | some h, some l => UInt8.ofNat (h * 16 + l) :: decodeBytes rest
    | _, _ => 37 :: decodeBytes (high :: low :: rest)
  | c :: rest => String.utf8EncodeChar c ++ decodeBytes rest

def decode (text : String) : Option String := textOf (decodeBytes text.toList)

/-- What is kept is ASCII and no percent sign. -/
def Plain (kept : UInt8 → Bool) : Prop := ∀ byte, kept byte = true → byte.toNat < 128 ∧ byte ≠ 37

/-- Letters and digits of ASCII. -/
def alphanumeric (byte : UInt8) : Bool :=
  (48 ≤ byte.toNat && byte.toNat ≤ 57) || (65 ≤ byte.toNat && byte.toNat ≤ 90) || (97 ≤ byte.toNat && byte.toNat ≤ 122)

theorem alphanumeric_plain : Plain alphanumeric := by
  intro byte kept
  simp only [alphanumeric, Bool.or_eq_true, Bool.and_eq_true, decide_eq_true_eq] at kept
  refine ⟨by omega, ?_⟩
  rintro rfl
  revert kept
  decide

theorem decodeBytes_other {c : Char} (other : c ≠ '%') (rest : List Char) :
    decodeBytes (c :: rest) = String.utf8EncodeChar c ++ decodeBytes rest := by
  rw [decodeBytes]
  exact fun _ _ _ percent _ => other percent

theorem encodeChar_ascii {byte : UInt8} (ascii : byte.toNat < 128) : String.utf8EncodeChar (Char.ofNat byte.toNat) = [byte] := by
  have all : ∀ n < 128, String.utf8EncodeChar (Char.ofNat n) = [UInt8.ofNat n] := by decide
  rw [all byte.toNat ascii, UInt8.ofNat_toNat]

theorem decode_byte {kept : UInt8 → Bool} (plain : Plain kept) (byte : UInt8) (rest : List Char) :
    decodeBytes (encodeByte kept byte ++ rest) = byte :: decodeBytes rest := by
  unfold encodeByte
  split
  · rename_i asIs
    obtain ⟨ascii, percent⟩ := plain byte asIs
    have other : Char.ofNat byte.toNat ≠ '%' := by
      intro same
      have all : ∀ n < 128, Char.ofNat n = '%' → n = 37 := by decide
      exact percent (UInt8.toNat_inj.1 (all byte.toNat ascii same))
    rw [List.singleton_append, decodeBytes_other other, encodeChar_ascii ascii, List.singleton_append]
  · have small := UInt8.toNat_lt byte
    have high : hexValue (hexChar (byte.toNat / 16)) = some (byte.toNat / 16) := hexValue_hexChar (by omega)
    have low : hexValue (hexChar (byte.toNat % 16)) = some (byte.toNat % 16) := hexValue_hexChar (by omega)
    have whole : byte.toNat / 16 * 16 + byte.toNat % 16 = byte.toNat := by omega
    simp only [List.cons_append, List.nil_append, decodeBytes, high, low, whole, UInt8.ofNat_toNat]

theorem decode_bytes {kept : UInt8 → Bool} (plain : Plain kept) (bytes : List UInt8) :
    decodeBytes (bytes.flatMap (encodeByte kept)) = bytes := by
  induction bytes with
  | nil => rfl
  | cons byte rest ih => rw [List.flatMap_cons, decode_byte plain, ih]

/-- Decoding gives back what was encoded. -/
theorem decode_encode {kept : UInt8 → Bool} (plain : Plain kept) (text : String) : decode (encode kept text) = some text := by
  rw [decode, encode, String.toList_ofList, decode_bytes plain, textOf_bytesOf]

/-- An encoded text is written in what is kept, percent signs and hexadecimal digits. -/
theorem mem_encode {kept : UInt8 → Bool} {text : String} {c : Char} (mem : c ∈ (encode kept text).toList) :
    (∃ byte, kept byte = true ∧ c = Char.ofNat byte.toNat) ∨ c = '%' ∨ ∃ n < 16, c = hexChar n := by
  rw [encode, String.toList_ofList, List.mem_flatMap] at mem
  obtain ⟨byte, _, written⟩ := mem
  have small := UInt8.toNat_lt byte
  unfold encodeByte at written
  split at written
  · rename_i asIs
    exact Or.inl ⟨byte, asIs, List.mem_singleton.1 written⟩
  · simp only [List.mem_cons, List.not_mem_nil, or_false] at written
    rcases written with percent | high | low
    · exact Or.inr (Or.inl percent)
    · exact Or.inr (Or.inr ⟨_, by omega, high⟩)
    · exact Or.inr (Or.inr ⟨_, by omega, low⟩)

end ToolArtifactRegistry.Library.Percent
