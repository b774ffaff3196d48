import Mathlib.Algebra.GroupWithZero.Nat
import ToolArtifactRegistry.Domain.Artifact
import ToolArtifactRegistry.Library.Encodings

/-! Digests as they are written: how a text is decoded to the bytes of an algorithm, the identifier made of
them, and what a candidate write is told about the digests in it. -/
namespace ToolArtifactRegistry.Domain.Digest

open Library.Rdf Library.Text Library.Encodings Ids Store Rdf Content

/-- One of the engines of a codec. -/
structure Engine where
  encode : List UInt8 → String
  decode : String → Option (List UInt8)

/-- The codecs digests are read with. -/
structure Codecs where
  hexEncode : List UInt8 → String
  hexDecode : String → Option (List UInt8)
  urlSafeNoPad : Engine
  urlSafe : Engine
  standardNoPad : Engine
  standard : Engine

/-- An engine writes one alphabet, with or without padding, and reads what it writes. -/
structure Engine.Follows (engine : Engine) (alphabet : Alphabet) (padded : Bool) : Prop where
  encode : ∀ bytes, engine.encode bytes = base64Encode alphabet padded bytes
  decode : ∀ text, engine.decode text = base64Decode alphabet padded text

/-- The codecs do what the encodings are specified to do. -/
structure Codecs.Conform (codecs : Codecs) : Prop where
  hexEncode : ∀ bytes, codecs.hexEncode bytes = Library.Encodings.hexEncode bytes
  hexDecode : ∀ text, codecs.hexDecode text = Library.Encodings.hexDecode text
  urlSafeNoPad : codecs.urlSafeNoPad.Follows .urlSafe false
  urlSafe : codecs.urlSafe.Follows .urlSafe true
  standardNoPad : codecs.standardNoPad.Follows .standard false
  standard : codecs.standard.Follows .standard true

inductive Problem where
  | unknownAlgorithm
  | malformedDigest (expectedHexChars : Nat)
  | notDerivable
  deriving DecidableEq

def deriving_ : List String := (algorithms.filter Algorithm.derives).map Algorithm.name

/-- One sentence saying what is wrong and what to do, naming the field the caller sent. -/
def Problem.message (problem : Problem) (algorithm : String) : String :=
  match problem with
  | .unknownAlgorithm =>
    "`" ++ algorithm ++ "` is not a digest algorithm this registry recognises, so it cannot check the digest is even " ++
      "the right length. Use one of: " ++ join ", " (algorithms.map Algorithm.name) ++ "."
  | .malformedDigest expectedHexChars =>
    "that is not a " ++ algorithm ++ " digest: it must be " ++ toString expectedHexChars ++ " hexadecimal characters " ++
      "(what `sha256sum` and `openssl dgst` print), or the same digest in base64. A digest of the wrong length or " ++
      "alphabet cannot match anything, here or at any other registry."
  | .notDerivable =>
    "a stable content identifier is not derived from " ++ algorithm ++ "; use one of: " ++ join ", " deriving_ ++ "."

/-- A content identifier and the spellings of the digest behind it. -/
structure ContentId where
  iri : String
  algorithm : String
  hex : String
  base64url : String
  deriving DecidableEq

def byteLength (text : String) : Nat := (text.toList.map Char.utf8Size).sum

section Deriving

variable (codecs : Codecs)

/-- Hexadecimal first, where the length is right for it; then base 64 in both alphabets, without padding and with it. -/
def decodeDigest (value : String) (bytes : Nat) : Option (List UInt8) :=
  let v := trim value
  let raw := if byteLength v = bytes * 2 then codecs.hexDecode v else none
  match raw with
  | some raw => some raw
  | none =>
    [codecs.urlSafeNoPad.decode v, codecs.urlSafe.decode v, codecs.standardNoPad.decode v,
      codecs.standard.decode v].findSome? (fun attempt => attempt.filter (fun raw => decide (raw.length = bytes)))

def identify (algorithmName value : String) : Except Problem ContentId :=
  match algorithm algorithmName with
  | none => .error .unknownAlgorithm
  | some alg =>
    match decodeDigest codecs value alg.bytes with
    | none => .error (.malformedDigest (alg.bytes * 2))
    | some raw =>
      if !alg.derives then .error .notDerivable
      else
        let base64url := codecs.urlSafeNoPad.encode raw
        .ok ⟨"ni:///" ++ alg.name ++ ";" ++ base64url, alg.name, codecs.hexEncode raw, base64url⟩

/-- Check a digest without building an identifier, for the algorithms nothing is derived from. -/
def check (algorithmName value : String) : Except Problem Unit :=
  match identify codecs algorithmName value with
  | .ok _ => .ok ()
  | .error .notDerivable => .ok ()
  | .error e => .error e

/-- What a caller has to hand as a content identifier, in its canonical form. -/
def parseQuery (value : String) : Option String :=
  let v := trim value
  if v = "" then none
  else
    match stripPrefix v "ni:///" with
    | some rest => (splitOnce rest ';').bind (fun parts => (identify codecs parts.1 parts.2).toOption.map ContentId.iri)
    | none =>
      ((algorithms.filter Algorithm.derives).findSome? (fun alg => (identify codecs alg.name v).toOption)).map ContentId.iri

/-- The identifiers the registry writes and filters by are these, when the platform decodes digests this way. -/
theorem identify_eq {platform : Platform}
    (decodes : ∀ value bytes, platform.decodeDigest value bytes =
      (decodeDigest codecs value bytes).map codecs.urlSafeNoPad.encode) (algorithmName value : String) :
    Content.identify platform algorithmName value = (identify codecs algorithmName value).toOption.map ContentId.iri := by
  unfold Content.identify identify
  cases algorithm algorithmName with
  | none => rfl
  | some alg =>
    simp only [Option.bind_eq_bind, Option.bind_some, decodes]
    cases decodeDigest codecs value alg.bytes with
    | none => rfl
    | some raw => cases alg.derives <;> rfl

theorem parseQuery_eq {platform : Platform}
    (decodes : ∀ value bytes, platform.decodeDigest value bytes =
      (decodeDigest codecs value bytes).map codecs.urlSafeNoPad.encode) (value : String) :
    Content.parseQuery platform value = parseQuery codecs value := by
  have same := identify_eq codecs decodes
  unfold Content.parseQuery parseQuery
  dsimp only
  by_cases blank : trim value = ""
  · rw [if_pos blank, if_pos blank]
  · rw [if_neg blank, if_neg blank]
    cases stripPrefix (trim value) "ni:///" with
    | some rest => simp only [same]
    | none =>
      simp only [same]
      rw [List.map_findSome?]
      rfl

end Deriving

section Findings

inductive Severity where
  | violation
  | warning
  deriving DecidableEq

structure Finding where
  severity : Severity
  focus : String
  path : String
  constraint : String
  message : String
  field : String
  value : Option String

/-- The value a map has for a key when the pairs were inserted one after the other. -/
def lastOf {α : Type} (pairs : List (String × α)) (key : String) : Option α :=
  (pairs.reverse.find? (fun pair => pair.1 == key)).map Prod.snd

/-- The algorithm texts of a candidate write, by the node they are about. -/
def algorithmsIn (quads : List Quad) : List (String × String) :=
  quads.filterMap (fun quad =>
    if quad.predicate = Ns.spdx ++ "algorithm" then
      match quad.object with
      | .named iri => some (subjectKey quad.subject, Artifact.trimPrefix "checksumAlgorithm_" iri.length (iriTail iri))
      | _ => none
    else none)

def valuesIn (quads : List Quad) : List (String × String) :=
  quads.filterMap (fun quad =>
    if quad.predicate = Ns.spdx ++ "checksumValue" then
      match quad.object with
      | .literal value _ _ => some (subjectKey quad.subject, value)
      | _ => none
    else none)

/-- The order of the report: by node, then by algorithm, then by digest. -/
def entryLe (left right : String × String × String) : Bool :=
  if left.1 = right.1 then
    if left.2.1 = right.2.1 then Library.Text.le left.2.2 right.2.2 else Library.Text.le left.2.1 right.2.1
  else Library.Text.le left.1 right.1

/-- Every checksum node with its algorithm and its digest. -/
def checksumsIn (quads : List Quad) : List (String × String × String) :=
  ((((valuesIn quads).map Prod.fst).eraseDups.filterMap (fun subject => do
    let value ← lastOf (valuesIn quads) subject
    let algorithm ← lastOf (algorithmsIn quads) subject
    return (subject, algorithm, value))).mergeSort entryLe)

/-- The key of a term that may be the subject of something; a literal is spelled out. -/
def objectKey : Term → String
  | .named iri => iri
  | .blank label => "_:" ++ label
  | .literal value datatype language => value ++ datatype ++ language.getD ""

/-- The distributions of a candidate write with their places, each among those of its record. -/
def places (quads : List Quad) : List (String × Nat) :=
  let links := quads.filter (fun quad => decide (quad.predicate = Ns.dcat ++ "distribution"))
  links.mapIdx (fun i quad =>
    (objectKey quad.object, (links.take i).countP (fun other => subjectKey other.subject == subjectKey quad.subject)))

/-- The input field each checksum node was carried by. -/
def fieldHints (quads : List Quad) : List (String × String) :=
  (quads.filter (fun quad => decide (quad.predicate = Ns.spdx ++ "checksum"))).filterMap (fun quad =>
    (lastOf (places quads) (subjectKey quad.subject)).map (fun place =>
      (objectKey quad.object, "distributions[" ++ toString place ++ "].checksum.value")))

def severityOf : Problem → Severity
  | .unknownAlgorithm => .warning
  | _ => .violation

def findings (codecs : Codecs) (quads : List Quad) : List Finding :=
  (checksumsIn quads).filterMap (fun entry =>
    match check codecs entry.2.1 entry.2.2 with
    | .ok _ => none
    | .error problem =>
      some { severity := severityOf problem
             focus := entry.1
             path := Ns.spdx ++ "checksumValue"
             constraint := "PatternConstraintComponent"
             message := problem.message entry.2.1
             field := (lastOf (fieldHints quads) entry.1).getD "distributions.checksum.value"
             value := some entry.2.2 })

end Findings

section Spelling

/-- A text spells bytes: in hexadecimal of any case, or in base 64 of either alphabet, padded or not. -/
def Spells (text : String) (bytes : List UInt8) : Prop :=
  toAsciiLowercase text = Library.Encodings.hexEncode bytes ∨ ∃ alphabet padded, text = base64Encode alphabet padded bytes

/-- A name and a text denote an algorithm and a digest of its length. -/
structure Denotes (name value : String) (alg : Algorithm) (bytes : List UInt8) : Prop where
  algorithm : Content.algorithm name = some alg
  spelled : Spells (trim value) bytes
  length : bytes.length = alg.bytes

/-- The identifier of a digest. -/
def contentId (alg : Algorithm) (bytes : List UInt8) : ContentId where
  iri := "ni:///" ++ alg.name ++ ";" ++ base64Encode .urlSafe false bytes
  algorithm := alg.name
  hex := Library.Encodings.hexEncode bytes
  base64url := base64Encode .urlSafe false bytes

theorem byteLength_ascii {text : String} (ascii : ∀ c ∈ text.toList, c.utf8Size = 1) : byteLength text = text.toList.length := by
  have ones : text.toList.map Char.utf8Size = List.replicate text.toList.length 1 := by
    rw [List.eq_replicate_iff]
    refine ⟨List.length_map _, ?_⟩
    intro size mem
    obtain ⟨c, inside, rfl⟩ := List.mem_map.1 mem
    exact ascii c inside
  rw [byteLength, ones, List.sum_replicate_nat, Nat.mul_one]

theorem utf8Size_of_lower {c : Char} (digit : asciiLower c ∈ hexDigits) : c.utf8Size = 1 := by
  unfold asciiLower at digit
  split at digit
  · rename_i letter
    have bound : c.val ≤ 127 := UInt32.le_trans letter.2 (by decide)
    simp [Char.utf8Size, bound]
  · have digits : ∀ c ∈ hexDigits, c.utf8Size = 1 := by decide
    exact digits c digit

theorem toList_lower (text : String) : (toAsciiLowercase text).toList = text.toList.map asciiLower := String.toList_ofList

theorem lower_digits {text : String} {bytes : List UInt8} (spelled : toAsciiLowercase text = Library.Encodings.hexEncode bytes) :
    text.toList.map asciiLower = hexChars bytes := by
  rw [← toList_lower, spelled, Library.Encodings.hexEncode, String.toList_ofList]

theorem byteLength_hex {text : String} {bytes : List UInt8} (spelled : toAsciiLowercase text = Library.Encodings.hexEncode bytes) :
    byteLength text = 2 * bytes.length := by
  have chars := lower_digits spelled
  have ascii : ∀ c ∈ text.toList, c.utf8Size = 1 := by
    intro c mem
    apply utf8Size_of_lower
    apply mem_hexChars
    rw [← chars]
    exact List.mem_map_of_mem mem
  rw [byteLength_ascii ascii, ← length_hexChars, ← chars, List.length_map]

theorem utf8Size_symbol (alphabet : Alphabet) {n : Nat} (small : n < 64) : (alphabet.symbol n).utf8Size = 1 := by
  have all : ∀ alphabet : Alphabet, ∀ n < 64, (alphabet.symbol n).utf8Size = 1 := by
    intro alphabet
    cases alphabet <;> decide
  exact all alphabet n small

theorem byteLength_base64 (alphabet : Alphabet) (padded : Bool) (bytes : List UInt8) :
    byteLength (base64Encode alphabet padded bytes) =
      (4 * bytes.length + 2) / 3 + if padded then (3 - bytes.length % 3) % 3 else 0 := by
  have ascii : ∀ c ∈ (base64Encode alphabet padded bytes).toList, c.utf8Size = 1 := by
    intro c mem
    rw [base64Encode, String.toList_ofList] at mem
    rcases mem_base64Chars mem with ⟨n, small, rfl⟩ | rfl
    · exact utf8Size_symbol alphabet small
    · rfl
  rw [byteLength_ascii ascii, base64Encode, String.toList_ofList, length_base64Chars]

/-- Base 64 is shorter than hexadecimal. -/
theorem base64_short {text : String} {alphabet : Alphabet} {padded : Bool} {bytes : List UInt8} (long : 4 < bytes.length)
    (spelled : text = base64Encode alphabet padded bytes) : byteLength text < 2 * bytes.length := by
  rw [spelled, byteLength_base64]
  split <;> omega

/-- A text spells one byte string of a length. -/
theorem spells_unique {text : String} {bytes others : List UInt8} (long : 4 < bytes.length) (alike : bytes.length = others.length)
    (one : Spells text bytes) (two : Spells text others) : bytes = others := by
  rcases one with hex | ⟨alphabet, padded, spelled⟩
  · rcases two with again | ⟨alphabet, padded, spelled⟩
    · exact hexEncode_inj (hex.symm.trans again)
    · have short := base64_short (alike ▸ long) spelled
      have whole := byteLength_hex hex
      omega
  · rcases two with hex | ⟨other, filled, again⟩
    · have short := base64_short long spelled
      have whole := byteLength_hex hex
      omega
    · exact base64Encode_inj (spelled.symm.trans again)

section

variable {codecs : Codecs} (conform : codecs.Conform)

include conform

/-- Each attempt reads one spelling in base 64. -/
theorem attempts_spell {text : String} {bytes : List UInt8} {attempt : Option (List UInt8)}
    (tried : attempt ∈ [codecs.urlSafeNoPad.decode text, codecs.urlSafe.decode text, codecs.standardNoPad.decode text,
      codecs.standard.decode text]) (read : attempt = some bytes) : ∃ alphabet padded, text = base64Encode alphabet padded bytes := by
  simp only [List.mem_cons, List.not_mem_nil, or_false, conform.urlSafeNoPad.decode, conform.urlSafe.decode,
    conform.standardNoPad.decode, conform.standard.decode] at tried
  rcases tried with rfl | rfl | rfl | rfl
  · exact ⟨_, _, base64Decode_iff.1 read⟩
  · exact ⟨_, _, base64Decode_iff.1 read⟩
  · exact ⟨_, _, base64Decode_iff.1 read⟩
  · exact ⟨_, _, base64Decode_iff.1 read⟩

theorem attempted {text : String} {bytes : List UInt8} {alphabet : Alphabet} {padded : Bool}
    (spelled : text = base64Encode alphabet padded bytes) : some bytes ∈ [codecs.urlSafeNoPad.decode text,
      codecs.urlSafe.decode text, codecs.standardNoPad.decode text, codecs.standard.decode text] := by
  have read := base64Decode_iff.2 spelled
  simp only [List.mem_cons, List.not_mem_nil, or_false, conform.urlSafeNoPad.decode, conform.urlSafe.decode,
    conform.standardNoPad.decode, conform.standard.decode]
  cases alphabet with
  | standard => cases padded <;> simp [read]
  | urlSafe => cases padded <;> simp [read]

/-- A digest is decoded just when it spells bytes of the length asked for, and then to these. -/
theorem decodeDigest_iff {value : String} {bytes : Nat} (long : 4 < bytes) {raw : List UInt8} :
    decodeDigest codecs value bytes = some raw ↔ Spells (trim value) raw ∧ raw.length = bytes := by
  have attempts : ([codecs.urlSafeNoPad.decode (trim value), codecs.urlSafe.decode (trim value),
      codecs.standardNoPad.decode (trim value), codecs.standard.decode (trim value)].findSome?
        (fun attempt => attempt.filter (fun raw => decide (raw.length = bytes)))) = some raw ↔
      (∃ alphabet padded, trim value = base64Encode alphabet padded raw) ∧ raw.length = bytes := by
    constructor
    · intro found
      obtain ⟨attempt, tried, kept⟩ := List.exists_of_findSome?_eq_some found
      obtain ⟨read, fits⟩ := Option.filter_eq_some_iff.1 kept
      exact ⟨attempts_spell conform tried read, of_decide_eq_true fits⟩
    · rintro ⟨⟨alphabet, padded, spelled⟩, fits⟩
      have tried := attempted conform spelled
      cases found : ([codecs.urlSafeNoPad.decode (trim value), codecs.urlSafe.decode (trim value),
          codecs.standardNoPad.decode (trim value), codecs.standard.decode (trim value)].findSome?
            (fun attempt => attempt.filter (fun raw => decide (raw.length = bytes)))) with
      | none =>
        have missed := List.findSome?_eq_none_iff.1 found _ tried
        simp [fits] at missed
      | some other =>
        obtain ⟨attempt, taken, kept⟩ := List.exists_of_findSome?_eq_some found
        obtain ⟨read, _⟩ := Option.filter_eq_some_iff.1 kept
        obtain ⟨_, _, again⟩ := attempts_spell conform taken read
        rw [base64Encode_inj (again.symm.trans spelled)]
  unfold decodeDigest
  dsimp only
  rw [conform.hexDecode]
  by_cases wide : byteLength (trim value) = bytes * 2
  · rw [if_pos wide]
    cases hex : Library.Encodings.hexDecode (trim value) with
    | some other =>
      have lower := hexDecode_iff.1 hex
      have length := byteLength_hex lower
      constructor
      · intro same
        obtain rfl := Option.some.inj same
        exact ⟨Or.inl lower, by omega⟩
      · rintro ⟨spelled, fits⟩
        have same : raw = other := spells_unique (by omega) (by omega) spelled (Or.inl lower)
        rw [same]
    | none =>
      dsimp only
      rw [attempts]
      apply and_congr_left
      intro _
      constructor
      · exact Or.inr
      · rintro (lower | based)
        · rw [hexDecode_iff.2 lower] at hex
          cases hex
        · exact based
  · rw [if_neg wide]
    dsimp only
    rw [attempts]
    apply and_congr_left
    intro fits
    constructor
    · exact Or.inr
    · rintro (lower | based)
      · have length := byteLength_hex lower
        omega
      · exact based

omit conform in
theorem bytes_long : ∀ alg ∈ algorithms, 4 < alg.bytes := by decide

omit conform in
theorem algorithm_mem {name : String} {alg : Algorithm} (found : algorithm name = some alg) : alg ∈ algorithms :=
  List.mem_of_find?_eq_some found

/-- An identifier is made just of what denotes a digest of an algorithm that derives one. -/
theorem identify_ok {name value : String} {id : ContentId} :
    identify codecs name value = .ok id ↔ ∃ alg bytes, Denotes name value alg bytes ∧ alg.derives = true ∧ id = contentId alg bytes := by
  unfold identify
  cases found : algorithm name with
  | none =>
    constructor
    · intro impossible
      cases impossible
    · rintro ⟨alg, bytes, denotes, _⟩
      have known := denotes.algorithm
      rw [found] at known
      cases known
  | some alg =>
    have long := bytes_long alg (algorithm_mem found)
    dsimp only
    cases decoded : decodeDigest codecs value alg.bytes with
    | none =>
      constructor
      · intro impossible
        cases impossible
      · rintro ⟨other, bytes, denotes, _⟩
        have same : alg = other := Option.some.inj (found.symm.trans denotes.algorithm)
        subst same
        rw [(decodeDigest_iff conform long).2 ⟨denotes.spelled, denotes.length⟩] at decoded
        cases decoded
    | some raw =>
      obtain ⟨spelled, length⟩ := (decodeDigest_iff conform long).1 decoded
      dsimp only
      rw [conform.hexEncode, conform.urlSafeNoPad.encode]
      cases derived : alg.derives with
      | false =>
        constructor
        · intro impossible
          cases impossible
        · rintro ⟨other, bytes, denotes, derives, _⟩
          have same : alg = other := Option.some.inj (found.symm.trans denotes.algorithm)
          rw [← same, derived] at derives
          cases derives
      | true =>
        constructor
        · intro made
          exact ⟨alg, raw, ⟨found, spelled, length⟩, derived, (Except.ok.inj made).symm⟩
        · rintro ⟨other, bytes, denotes, _, rfl⟩
          have same : alg = other := Option.some.inj (found.symm.trans denotes.algorithm)
          subst same
          have one : raw = bytes := spells_unique (by omega) (by rw [length, denotes.length]) spelled denotes.spelled
          rw [← one]
          rfl

end

end Spelling

end ToolArtifactRegistry.Domain.Digest
