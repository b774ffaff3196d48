import ToolArtifactRegistry.Library.Text

/-! Bytes spelled as text, in hexadecimal and in base 64: two alphabets, with and without padding. Each
spelling is read back exactly, and no two byte strings share one. -/
namespace ToolArtifactRegistry.Library.Encodings

open Library.Text

section Hex

def hexDigits : List Char :=
  ['0', '1', '2', '3', '4', '5', '6', '7', '8', '9', 'a', 'b', 'c', 'd', 'e', 'f']

def hexDigit (n : Nat) : Char := hexDigits.getD n '0'

def hexChars (bytes : List UInt8) : List Char :=
  bytes.flatMap (fun byte => [hexDigit (byte.toNat / 16), hexDigit (byte.toNat % 16)])

def hexEncode (bytes : List UInt8) : String := String.ofList (hexChars bytes)

def hexPairs : List Char → List UInt8
  | high :: low :: rest => UInt8.ofNat (hexDigits.idxOf high * 16 + hexDigits.idxOf low) :: hexPairs rest
  | _ => []

/-- Two digits for each byte, in any case. -/
def hexDecode (text : String) : Option (List UInt8) :=
  let bytes := hexPairs (toAsciiLowercase text).toList
  if hexEncode bytes = toAsciiLowercase text then some bytes else none

theorem idxOf_hexDigit {n : Nat} (small : n < 16) : hexDigits.idxOf (hexDigit n) = n := by
  have all : ∀ n < 16, hexDigits.idxOf (hexDigit n) = n := by decide
  exact all n small

theorem hexPairs_hexChars (bytes : List UInt8) : hexPairs (hexChars bytes) = bytes := by
  induction bytes with
  | nil => rfl
  | cons byte rest ih =>
    have bound := byte.toNat_lt
    have high : byte.toNat / 16 < 16 := by omega
    have low : byte.toNat % 16 < 16 := by omega
    have whole : byte.toNat / 16 * 16 + byte.toNat % 16 = byte.toNat := by omega
    show UInt8.ofNat (hexDigits.idxOf (hexDigit (byte.toNat / 16)) * 16 + hexDigits.idxOf (hexDigit (byte.toNat % 16))) ::
      hexPairs (hexChars rest) = byte :: rest
    rw [ih, idxOf_hexDigit high, idxOf_hexDigit low, whole, UInt8.ofNat_toNat]

theorem hexEncode_inj {left right : List UInt8} (same : hexEncode left = hexEncode right) : left = right := by
  have chars := congrArg String.toList same
  simp only [hexEncode, String.toList_ofList] at chars
  rw [← hexPairs_hexChars left, chars, hexPairs_hexChars]

theorem hexDecode_iff {text : String} {bytes : List UInt8} :
    hexDecode text = some bytes ↔ toAsciiLowercase text = hexEncode bytes := by
  unfold hexDecode
  constructor
  · intro read
    dsimp only at read
    split at read
    · rename_i spelled
      rw [← spelled, Option.some.inj read]
    · cases read
  · intro spelled
    have back : hexPairs (toAsciiLowercase text).toList = bytes := by
      rw [spelled, hexEncode, String.toList_ofList, hexPairs_hexChars]
    rw [back, if_pos spelled.symm]

theorem length_hexChars (bytes : List UInt8) : (hexChars bytes).length = 2 * bytes.length := by
  induction bytes with
  | nil => rfl
  | cons byte rest ih =>
    show (hexChars rest).length + 1 + 1 = _
    rw [ih, List.length_cons]
    omega

theorem mem_hexChars {bytes : List UInt8} {c : Char} (mem : c ∈ hexChars bytes) : c ∈ hexDigits := by
  have all : ∀ n, hexDigit n ∈ hexDigits := by
    intro n
    by_cases small : n < 16
    · have digits : ∀ n < 16, hexDigit n ∈ hexDigits := by decide
      exact digits n small
    · have past : hexDigits.length ≤ n := Nat.le_of_not_lt small
      rw [hexDigit, List.getD_eq_getElem?_getD, List.getElem?_eq_none past]
      decide
  obtain ⟨byte, _, here⟩ := List.mem_flatMap.1 mem
  simp only [List.mem_cons, List.not_mem_nil, or_false] at here
  rcases here with rfl | rfl
  · exact all _
  · exact all _

theorem hexDigit_idxOf {c : Char} (digit : c ∈ hexDigits) : hexDigit (hexDigits.idxOf c) = c := by
  have all : ∀ c ∈ hexDigits, hexDigit (hexDigits.idxOf c) = c := by decide
  exact all c digit

/-- Every even number of digits spells bytes. -/
theorem hexChars_hexPairs {chars : List Char} (digits : ∀ c ∈ chars, c ∈ hexDigits) (even : chars.length % 2 = 0) :
    hexChars (hexPairs chars) = chars := by
  induction chars using hexPairs.induct with
  | case1 high low rest ih =>
    have first := digits high List.mem_cons_self
    have second := digits low (List.mem_cons_of_mem _ List.mem_cons_self)
    have one := List.idxOf_lt_length_of_mem first
    have two := List.idxOf_lt_length_of_mem second
    have width : hexDigits.length = 16 := rfl
    have whole : (UInt8.ofNat (hexDigits.idxOf high * 16 + hexDigits.idxOf low)).toNat =
        hexDigits.idxOf high * 16 + hexDigits.idxOf low := by
      rw [UInt8.toNat_ofNat']
      omega
    have upper : (hexDigits.idxOf high * 16 + hexDigits.idxOf low) / 16 = hexDigits.idxOf high := by omega
    have lower : (hexDigits.idxOf high * 16 + hexDigits.idxOf low) % 16 = hexDigits.idxOf low := by omega
    have later := ih (fun c mem => digits c (List.mem_cons_of_mem _ (List.mem_cons_of_mem _ mem)))
      (by simp only [List.length_cons] at even; omega)
    rw [hexPairs, hexChars, List.flatMap_cons, whole, upper, lower, hexDigit_idxOf first, hexDigit_idxOf second]
    exact congrArg (fun tail => high :: low :: tail) later
  | case2 chars short =>
    match chars with
    | [] => rfl
    | [c] => simp at even
    | high :: low :: rest => exact absurd rfl (short high low rest)

end Hex

section Base64

inductive Alphabet where
  | standard
  | urlSafe
  deriving DecidableEq

/-- The letters, the small letters and the digits. -/
def common : List Char :=
  ['A', 'B', 'C', 'D', 'E', 'F', 'G', 'H', 'I', 'J', 'K', 'L', 'M', 'N', 'O', 'P', 'Q', 'R', 'S', 'T', 'U', 'V',
    'W', 'X', 'Y', 'Z', 'a', 'b', 'c', 'd', 'e', 'f', 'g', 'h', 'i', 'j', 'k', 'l', 'm', 'n', 'o', 'p', 'q', 'r',
    's', 't', 'u', 'v', 'w', 'x', 'y', 'z', '0', '1', '2', '3', '4', '5', '6', '7', '8', '9']

def Alphabet.symbols : Alphabet → List Char
  | .standard => common ++ ['+', '/']
  | .urlSafe => common ++ ['-', '_']

def Alphabet.symbol (alphabet : Alphabet) (n : Nat) : Char := alphabet.symbols.getD n 'A'

/-- Six bits at a time; the last ones are filled up with zeros. -/
def sextets : List UInt8 → List Nat
  | a :: b :: c :: rest =>
    a.toNat / 4 :: (a.toNat % 4 * 16 + b.toNat / 16) :: (b.toNat % 16 * 4 + c.toNat / 64) :: c.toNat % 64 :: sextets rest
  | [a, b] => [a.toNat / 4, a.toNat % 4 * 16 + b.toNat / 16, b.toNat % 16 * 4]
  | [a] => [a.toNat / 4, a.toNat % 4 * 16]
  | [] => []

def octets : List Nat → List UInt8
  | w :: x :: y :: z :: rest =>
    UInt8.ofNat (w * 4 + x / 16) :: UInt8.ofNat (x % 16 * 16 + y / 4) :: UInt8.ofNat (y % 4 * 64 + z) :: octets rest
  | [w, x, y] => [UInt8.ofNat (w * 4 + x / 16), UInt8.ofNat (x % 16 * 16 + y / 4)]
  | [w, x] => [UInt8.ofNat (w * 4 + x / 16)]
  | _ => []

def padding (length : Nat) : List Char := List.replicate ((3 - length % 3) % 3) '='

def base64Chars (alphabet : Alphabet) (padded : Bool) (bytes : List UInt8) : List Char :=
  (sextets bytes).map alphabet.symbol ++ if padded then padding bytes.length else []

def base64Encode (alphabet : Alphabet) (padded : Bool) (bytes : List UInt8) : String :=
  String.ofList (base64Chars alphabet padded bytes)

/-- Exactly the texts the encoder writes are read. -/
def base64Decode (alphabet : Alphabet) (padded : Bool) (text : String) : Option (List UInt8) :=
  let bytes := octets ((text.toList.filter (fun c => c != '=')).map alphabet.symbols.idxOf)
  if base64Encode alphabet padded bytes = text then some bytes else none

theorem octets_sextets (bytes : List UInt8) : octets (sextets bytes) = bytes := by
  induction bytes using sextets.induct with
  | case1 a b c rest ih =>
    have one := a.toNat_lt
    have two := b.toNat_lt
    have three := c.toNat_lt
    have first : a.toNat / 4 * 4 + (a.toNat % 4 * 16 + b.toNat / 16) / 16 = a.toNat := by omega
    have second : (a.toNat % 4 * 16 + b.toNat / 16) % 16 * 16 + (b.toNat % 16 * 4 + c.toNat / 64) / 4 = b.toNat := by omega
    have third : (b.toNat % 16 * 4 + c.toNat / 64) % 4 * 64 + c.toNat % 64 = c.toNat := by omega
    simp only [sextets, octets, first, second, third, ih, UInt8.ofNat_toNat]
  | case2 a b =>
    have one := a.toNat_lt
    have two := b.toNat_lt
    have first : a.toNat / 4 * 4 + (a.toNat % 4 * 16 + b.toNat / 16) / 16 = a.toNat := by omega
    have second : (a.toNat % 4 * 16 + b.toNat / 16) % 16 * 16 + b.toNat % 16 * 4 / 4 = b.toNat := by omega
    simp only [sextets, octets, first, second, UInt8.ofNat_toNat]
  | case3 a =>
    have one := a.toNat_lt
    have first : a.toNat / 4 * 4 + a.toNat % 4 * 16 / 16 = a.toNat := by omega
    simp only [sextets, octets, first, UInt8.ofNat_toNat]
  | case4 => rfl

theorem sextets_lt {bytes : List UInt8} : ∀ n ∈ sextets bytes, n < 64 := by
  induction bytes using sextets.induct with
  | case1 a b c rest ih =>
    have one := a.toNat_lt
    have two := b.toNat_lt
    have three := c.toNat_lt
    intro n mem
    simp only [sextets, List.mem_cons] at mem
    rcases mem with rfl | rfl | rfl | rfl | later
    · omega
    · omega
    · omega
    · omega
    · exact ih n later
  | case2 a b =>
    have one := a.toNat_lt
    have two := b.toNat_lt
    intro n mem
    simp only [sextets, List.mem_cons, List.not_mem_nil, or_false] at mem
    omega
  | case3 a =>
    have one := a.toNat_lt
    intro n mem
    simp only [sextets, List.mem_cons, List.not_mem_nil, or_false] at mem
    omega
  | case4 => exact fun n mem => absurd mem (List.not_mem_nil)

theorem length_sextets (bytes : List UInt8) : (sextets bytes).length = (4 * bytes.length + 2) / 3 := by
  induction bytes using sextets.induct with
  | case1 a b c rest ih =>
    simp only [sextets, List.length_cons, ih]
    omega
  | case2 a b => simp [sextets]
  | case3 a => simp [sextets]
  | case4 => rfl

/-- A symbol that is in both alphabets has the same place in both, and none is the padding. -/
theorem symbol_agrees (left right : Alphabet) {m n : Nat} (small : m < 64) (little : n < 64)
    (same : left.symbol m = right.symbol n) : m = n := by
  have all : ∀ left right : Alphabet, ∀ m < 64, right.symbols.idxOf (left.symbol m) = m ∨
      right.symbols.idxOf (left.symbol m) = 64 := by
    intro left right
    cases left <;> cases right <;> decide
  have own : ∀ right : Alphabet, ∀ n < 64, right.symbols.idxOf (right.symbol n) = n := by
    intro right
    cases right <;> decide
  have place := own right n little
  rw [← same] at place
  rcases all left right m small with here | none_
  · omega
  · omega

theorem symbol_ne_padding (alphabet : Alphabet) {n : Nat} (small : n < 64) : alphabet.symbol n ≠ '=' := by
  have all : ∀ alphabet : Alphabet, ∀ n < 64, alphabet.symbol n ≠ '=' := by
    intro alphabet
    cases alphabet <;> decide
  exact all alphabet n small

theorem idxOf_symbol (alphabet : Alphabet) {n : Nat} (small : n < 64) : alphabet.symbols.idxOf (alphabet.symbol n) = n := by
  have all : ∀ alphabet : Alphabet, ∀ n < 64, alphabet.symbols.idxOf (alphabet.symbol n) = n := by
    intro alphabet
    cases alphabet <;> decide
  exact all alphabet n small

/-- Without its padding an encoding is the symbols of the bytes. -/
theorem filter_base64Chars (alphabet : Alphabet) (padded : Bool) (bytes : List UInt8) :
    (base64Chars alphabet padded bytes).filter (fun c => c != '=') = (sextets bytes).map alphabet.symbol := by
  have symbols : ((sextets bytes).map alphabet.symbol).filter (fun c => c != '=') = (sextets bytes).map alphabet.symbol := by
    rw [List.filter_eq_self]
    intro c mem
    obtain ⟨n, inside, rfl⟩ := List.mem_map.1 mem
    simpa using symbol_ne_padding alphabet (sextets_lt n inside)
  have pads : (if padded then padding bytes.length else []).filter (fun c => c != '=') = [] := by
    cases padded with
    | false => rfl
    | true => simp [padding]
  rw [base64Chars, List.filter_append, symbols, pads, List.append_nil]

theorem map_symbol_inj {left right : Alphabet} {xs ys : List Nat} (small : ∀ n ∈ xs, n < 64) (little : ∀ n ∈ ys, n < 64)
    (same : xs.map left.symbol = ys.map right.symbol) : xs = ys := by
  induction xs generalizing ys with
  | nil =>
    cases ys with
    | nil => rfl
    | cons y rest => cases same
  | cons x more ih =>
    cases ys with
    | nil => cases same
    | cons y rest =>
      simp only [List.map_cons, List.cons.injEq] at same
      have heads := symbol_agrees left right (small x List.mem_cons_self) (little y List.mem_cons_self) same.1
      have tails := ih (fun n mem => small n (List.mem_cons_of_mem _ mem)) (fun n mem => little n (List.mem_cons_of_mem _ mem))
        same.2
      rw [heads, tails]

/-- Whatever the alphabets and the padding, one text spells one byte string. -/
theorem base64Encode_inj {left right : Alphabet} {padded filled : Bool} {bytes others : List UInt8}
    (same : base64Encode left padded bytes = base64Encode right filled others) : bytes = others := by
  have chars := congrArg String.toList same
  simp only [base64Encode, String.toList_ofList] at chars
  have symbols := congrArg (List.filter (fun c => c != '=')) chars
  rw [filter_base64Chars, filter_base64Chars] at symbols
  rw [← octets_sextets bytes, map_symbol_inj sextets_lt sextets_lt symbols, octets_sextets]

theorem base64Decode_iff {alphabet : Alphabet} {padded : Bool} {text : String} {bytes : List UInt8} :
    base64Decode alphabet padded text = some bytes ↔ text = base64Encode alphabet padded bytes := by
  unfold base64Decode
  constructor
  · intro read
    dsimp only at read
    split at read
    · rename_i spelled
      rw [← spelled, Option.some.inj read]
    · cases read
  · rintro rfl
    have places : ((sextets bytes).map alphabet.symbol).map alphabet.symbols.idxOf = sextets bytes := by
      rw [List.map_map]
      conv_rhs => rw [← List.map_id (sextets bytes)]
      apply List.map_congr_left
      intro n mem
      exact idxOf_symbol alphabet (sextets_lt n mem)
    have back : octets (((base64Encode alphabet padded bytes).toList.filter (fun c => c != '=')).map
        alphabet.symbols.idxOf) = bytes := by
      rw [base64Encode, String.toList_ofList, filter_base64Chars, places, octets_sextets]
    simp only [back, if_true]

theorem length_base64Chars (alphabet : Alphabet) (padded : Bool) (bytes : List UInt8) :
    (base64Chars alphabet padded bytes).length =
      (4 * bytes.length + 2) / 3 + if padded then (3 - bytes.length % 3) % 3 else 0 := by
  rw [base64Chars, List.length_append, List.length_map, length_sextets]
  cases padded with
  | false => rfl
  | true => simp only [if_true, padding, List.length_replicate]

/-- What an encoding is made of. -/
theorem mem_base64Chars {alphabet : Alphabet} {padded : Bool} {bytes : List UInt8} {c : Char}
    (mem : c ∈ base64Chars alphabet padded bytes) : (∃ n < 64, c = alphabet.symbol n) ∨ c = '=' := by
  rcases List.mem_append.1 mem with symbol | pad
  · obtain ⟨n, inside, rfl⟩ := List.mem_map.1 symbol
    exact Or.inl ⟨n, sextets_lt n inside, rfl⟩
  · cases padded with
    | false => cases pad
    | true => exact Or.inr (List.eq_of_mem_replicate pad)

end Base64

end ToolArtifactRegistry.Library.Encodings
