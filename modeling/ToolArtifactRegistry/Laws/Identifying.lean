import ToolArtifactRegistry.Domain.Digest

/-! Names for bytes. Whatever the spelling, one name stands for one digest; a digest without its algorithm is
taken for another one where it happens to be spelled like one. -/
namespace ToolArtifactRegistry.Laws

open Library.Text Library.Encodings Domain.Digest
open Domain.Content (Algorithm algorithms algorithm)

section Names

theorem name_inj {left right : Algorithm} (known : left ∈ algorithms) (listed : right ∈ algorithms)
    (same : left.name = right.name) : left = right := by
  have distinct : (algorithms.map Algorithm.name).Nodup := by decide
  exact List.inj_on_of_nodup_map distinct known listed same

theorem algorithm_spelled {name : String} {alg : Algorithm} (known : alg ∈ algorithms)
    (spelled : (algorithm name).map Algorithm.name = some alg.name) : algorithm name = some alg := by
  obtain ⟨other, found, named⟩ := Option.map_eq_some_iff.1 spelled
  rw [found, name_inj (algorithm_mem found) known named]

theorem algorithm_named {alg : Algorithm} (known : alg ∈ algorithms) : algorithm alg.name = some alg := by
  have all : ∀ alg ∈ algorithms, (algorithm alg.name).map Algorithm.name = some alg.name := by decide
  exact algorithm_spelled known (all alg known)

theorem semicolon_unnamed : ∀ alg ∈ algorithms, ';' ∉ alg.name.toList := by decide

/-- What stands before the first separator, and what comes after it, are told apart. -/
theorem append_separated {left right before after : List Char} {sep : Char} (clear : sep ∉ left) (free : sep ∉ before)
    (same : left ++ sep :: right = before ++ sep :: after) : left = before ∧ right = after := by
  have heads := congrArg (List.takeWhile (fun c => c != sep)) same
  have stops : ∀ {start rest : List Char}, sep ∉ start → (start ++ sep :: rest).takeWhile (fun c => c != sep) = start := by
    intro start rest absent
    rw [List.takeWhile_append_of_pos]
    · simp
    · intro c mem
      simpa using fun here : c = sep => absent (here ▸ mem)
  rw [stops clear, stops free] at heads
  subst heads
  simpa using same

theorem iri_chars (alg : Algorithm) (bytes : List UInt8) : (contentId alg bytes).iri.toList =
    "ni:///".toList ++ (alg.name.toList ++ ';' :: (base64Encode .urlSafe false bytes).toList) := by
  simp only [contentId, String.toList_append, List.append_assoc]
  rfl

/-- One name, one algorithm and one digest. -/
theorem contentId_inj {left right : Algorithm} (known : left ∈ algorithms) (listed : right ∈ algorithms)
    {bytes others : List UInt8} : (contentId left bytes).iri = (contentId right others).iri ↔ left = right ∧ bytes = others := by
  constructor
  · intro same
    have chars := congrArg String.toList same
    rw [iri_chars, iri_chars, List.append_cancel_left_eq] at chars
    obtain ⟨names, digests⟩ := append_separated (semicolon_unnamed left known) (semicolon_unnamed right listed) chars
    exact ⟨name_inj known listed (String.toList_inj.1 names), base64Encode_inj (String.toList_inj.1 digests)⟩
  · rintro ⟨rfl, rfl⟩
    rfl

end Names

section Texts

/-- A symbol of the alphabets is a visible character. -/
theorem symbol_plain {alphabet : Alphabet} {n : Nat} (small : n < 64) :
    isWhiteSpace (alphabet.symbol n) = false ∧ alphabet.symbol n ≠ ':' := by
  have all : ∀ alphabet : Alphabet, ∀ n < 64, isWhiteSpace (alphabet.symbol n) = false ∧ alphabet.symbol n ≠ ':' := by
    intro alphabet
    cases alphabet <;> decide
  exact all alphabet n small

theorem base64_plain {alphabet : Alphabet} {padded : Bool} {bytes : List UInt8} :
    ∀ c ∈ (base64Encode alphabet padded bytes).toList, isWhiteSpace c = false ∧ c ≠ ':' := by
  intro c mem
  rw [base64Encode, String.toList_ofList] at mem
  rcases mem_base64Chars mem with ⟨n, small, rfl⟩ | rfl
  · exact symbol_plain small
  · decide

theorem hex_plain {c : Char} (digit : asciiLower c ∈ hexDigits) : isWhiteSpace c = false ∧ c ≠ ':' := by
  unfold asciiLower at digit
  split at digit
  · rename_i letter
    have low : 65 ≤ c.toNat := letter.1
    have high : c.toNat ≤ 90 := letter.2
    constructor
    · simp only [isWhiteSpace, Bool.or_eq_false_iff, Bool.and_eq_false_iff, decide_eq_false_iff_not, beq_eq_false_iff_ne]
      omega
    · rintro rfl
      revert low
      decide
  · have digits : ∀ c ∈ hexDigits, isWhiteSpace c = false ∧ c ≠ ':' := by decide
    exact digits c digit

theorem spells_plain {text : String} {bytes : List UInt8} (spelled : Spells text bytes) :
    ∀ c ∈ text.toList, isWhiteSpace c = false ∧ c ≠ ':' := by
  intro c mem
  rcases spelled with hex | ⟨alphabet, padded, rfl⟩
  · apply hex_plain
    apply mem_hexChars
    rw [← lower_digits hex]
    exact List.mem_map_of_mem mem
  · exact base64_plain c mem

theorem trim_visible {text : String} (visible : ∀ c ∈ text.toList, isWhiteSpace c = false) : trim text = text := by
  have kept : text.toList.dropWhile isWhiteSpace = text.toList := by
    cases chars : text.toList with
    | nil => rfl
    | cons c rest =>
      have seen := visible c (by rw [chars]; exact List.mem_cons_self)
      rw [List.dropWhile_cons, if_neg (by rw [seen]; exact Bool.false_ne_true)]
  have mirrored : text.toList.reverse.dropWhile isWhiteSpace = text.toList.reverse := by
    cases chars : text.toList.reverse with
    | nil => rfl
    | cons c rest =>
      have mem : c ∈ text.toList := by
        rw [← List.mem_reverse, chars]
        exact List.mem_cons_self
      rw [List.dropWhile_cons, if_neg (by rw [visible c mem]; exact Bool.false_ne_true)]
  rw [trim, trimStartMatches, kept, String.ofList_toList, trimEndMatches, mirrored, List.reverse_reverse, String.ofList_toList]

end Texts

section Identifying

variable {codecs : Codecs}

/-- An identifier is parsed to itself. -/
theorem parse_contentId (conform : codecs.Conform) {alg : Algorithm} (known : alg ∈ algorithms) (derives : alg.derives = true)
    {bytes : List UInt8} (length : bytes.length = alg.bytes) :
    parseQuery codecs (contentId alg bytes).iri = some (contentId alg bytes).iri := by
  have names : ∀ alg ∈ algorithms, ∀ c ∈ ("ni:///" ++ alg.name ++ ";").toList, isWhiteSpace c = false := by decide
  have visible : ∀ c ∈ (contentId alg bytes).iri.toList, isWhiteSpace c = false := by
    intro c mem
    rw [contentId, String.toList_append] at mem
    rcases List.mem_append.1 mem with head | digest
    · exact names alg known c head
    · exact (base64_plain c digest).1
  have digest : ∀ c ∈ (base64Encode .urlSafe false bytes).toList, isWhiteSpace c = false :=
    fun c mem => (base64_plain c mem).1
  have whole : (contentId alg bytes).iri = "ni:///" ++ (alg.name ++ ";" ++ base64Encode .urlSafe false bytes) := by
    simp only [contentId, String.append_assoc]
  have parts : splitOnce (alg.name ++ ";" ++ base64Encode .urlSafe false bytes) ';' =
      some (alg.name, base64Encode .urlSafe false bytes) := by
    have chars : (alg.name ++ ";" ++ base64Encode .urlSafe false bytes).toList =
        alg.name.toList ++ ';' :: (base64Encode .urlSafe false bytes).toList := by
      simp only [String.toList_append, List.append_assoc]
      rfl
    have apart : ∀ c ∈ alg.name.toList, (c != ';') = true := by
      intro c mem
      simpa using fun here : c = ';' => semicolon_unnamed alg known (here ▸ mem)
    have before : (alg.name.toList ++ ';' :: (base64Encode .urlSafe false bytes).toList).takeWhile (fun c => c != ';') =
        alg.name.toList := by
      rw [List.takeWhile_append_of_pos apart]
      simp
    have after : (alg.name.toList ++ ';' :: (base64Encode .urlSafe false bytes).toList).dropWhile (fun c => c != ';') =
        ';' :: (base64Encode .urlSafe false bytes).toList := by
      rw [List.dropWhile_append_of_pos apart]
      simp
    have mem : ';' ∈ (alg.name ++ ";" ++ base64Encode .urlSafe false bytes).toList := by
      rw [chars]
      exact List.mem_append_right _ List.mem_cons_self
    rw [splitOnce, if_pos mem, chars, before, after, String.ofList_toList, List.drop_one, List.tail_cons, String.ofList_toList]
  have named : identify codecs alg.name (base64Encode .urlSafe false bytes) = .ok (contentId alg bytes) := by
    refine (identify_ok conform).2 ⟨alg, bytes, ⟨algorithm_named known, ?_, length⟩, derives, rfl⟩
    rw [trim_visible digest]
    exact Or.inr ⟨_, _, rfl⟩
  have some_ : (contentId alg bytes).iri ≠ "" := by
    intro empty
    have chars := iri_chars alg bytes
    rw [empty] at chars
    exact absurd chars (by simp)
  unfold parseQuery
  dsimp only
  rw [trim_visible visible, if_neg some_, whole, stripPrefix_append]
  dsimp only
  rw [parts, Option.bind_some, named]
  exact congrArg some whole

/-- Whatever is accepted denotes one digest of one algorithm; two names are equal just when these are, and a
name is parsed to itself. -/
theorem identifiers_name_bytes (conform : codecs.Conform) :
    (∀ name value, (∃ id, identify codecs name value = .ok id) ↔
      ∃ alg bytes, Denotes name value alg bytes ∧ alg.derives = true) ∧
    (∀ name value other text left right alg bytes known others, identify codecs name value = .ok left →
      identify codecs other text = .ok right → Denotes name value alg bytes → Denotes other text known others →
        (left.iri = right.iri ↔ alg = known ∧ bytes = others)) ∧
    ∀ name value id, identify codecs name value = .ok id → parseQuery codecs id.iri = some id.iri := by
  have made : ∀ {name value id alg bytes}, identify codecs name value = .ok id → Denotes name value alg bytes →
      id = contentId alg bytes := by
    intro name value id alg bytes accepted denotes
    obtain ⟨found, raw, held, _, rfl⟩ := (identify_ok conform).1 accepted
    obtain rfl : found = alg := Option.some.inj (held.algorithm.symm.trans denotes.algorithm)
    have long := bytes_long found (algorithm_mem held.algorithm)
    rw [spells_unique (by rw [held.length]; exact long) (by rw [held.length, denotes.length]) held.spelled denotes.spelled]
  refine ⟨?_, ?_, ?_⟩
  · intro name value
    constructor
    · rintro ⟨id, accepted⟩
      obtain ⟨alg, bytes, denotes, derives, _⟩ := (identify_ok conform).1 accepted
      exact ⟨alg, bytes, denotes, derives⟩
    · rintro ⟨alg, bytes, denotes, derives⟩
      exact ⟨_, (identify_ok conform).2 ⟨alg, bytes, denotes, derives, rfl⟩⟩
  · intro name value other text left right alg bytes known others one two denotes names
    rw [made one denotes, made two names]
    exact contentId_inj (algorithm_mem denotes.algorithm) (algorithm_mem names.algorithm)
  · intro name value id accepted
    obtain ⟨alg, bytes, denotes, derives, rfl⟩ := (identify_ok conform).1 accepted
    exact parse_contentId conform (algorithm_mem denotes.algorithm) derives denotes.length

def engine (alphabet : Alphabet) (padded : Bool) : Engine := ⟨base64Encode alphabet padded, base64Decode alphabet padded⟩

theorem engine_follows (alphabet : Alphabet) (padded : Bool) : (engine alphabet padded).Follows alphabet padded where
  encode bytes := by simp only [engine]
  decode text := by simp only [engine]

/-- The codecs as they are specified. -/
def specified : Codecs where
  hexEncode := Library.Encodings.hexEncode
  hexDecode := Library.Encodings.hexDecode
  urlSafeNoPad := engine .urlSafe false
  urlSafe := engine .urlSafe true
  standardNoPad := engine .standard false
  standard := engine .standard true

theorem specified_conform : specified.Conform where
  hexEncode bytes := by simp only [specified]
  hexDecode text := by simp only [specified]
  urlSafeNoPad := engine_follows .urlSafe false
  urlSafe := engine_follows .urlSafe true
  standardNoPad := engine_follows .standard false
  standard := engine_follows .standard true

def sha256 : Algorithm := ⟨"sha-256", ["sha256", "sha2256"], 32, true⟩

theorem sha256_known : sha256 ∈ algorithms := List.mem_cons_self

def upperDigest : String := "ABABABABABABABABABABABABABABABABABABABABABABABABABABABABABABABAB"

def paddedDigest : String := "q6urq6urq6urq6urq6urq6urq6urq6urq6urq6urq6s="

/-- A digest in capitals and the same one in padded base 64 have one name. -/
theorem capitals_and_padding : ∃ left right, identify specified "SHA-256" upperDigest = .ok left ∧
    identify specified "sha2_256" paddedDigest = .ok right ∧ left.iri = right.iri ∧ parseQuery specified left.iri = some left.iri := by
  obtain ⟨accepts, alike, again⟩ := identifiers_name_bytes specified_conform
  have upper : Denotes "SHA-256" upperDigest sha256 (List.replicate 32 0xAB) :=
    ⟨algorithm_spelled sha256_known (by decide +kernel), Or.inl (by decide +kernel), rfl⟩
  have padded : Denotes "sha2_256" paddedDigest sha256 (List.replicate 32 0xAB) :=
    ⟨algorithm_spelled sha256_known (by decide +kernel), Or.inr ⟨.standard, true, by decide +kernel⟩, rfl⟩
  obtain ⟨left, one⟩ := (accepts "SHA-256" upperDigest).2 ⟨sha256, _, upper, rfl⟩
  obtain ⟨right, two⟩ := (accepts "sha2_256" paddedDigest).2 ⟨sha256, _, padded, rfl⟩
  exact ⟨left, right, one, two, (alike _ _ _ _ _ _ _ _ _ _ one two upper padded).2 ⟨rfl, rfl⟩, again _ _ _ one⟩

end Identifying

section Searching

/-- Sixty-four hexadecimal digits, whatever their case. -/
def LooksHex (text : String) : Prop := text.toList.length = 64 ∧ ∀ c ∈ text.toList, asciiLower c ∈ hexDigits

def sha384 : Algorithm := ⟨"sha-384", ["sha384", "sha2384"], 48, true⟩

def sha512 : Algorithm := ⟨"sha-512", ["sha512", "sha2512"], 64, true⟩

theorem sha384_known : sha384 ∈ algorithms := List.mem_cons_of_mem _ List.mem_cons_self

theorem sha512_known : sha512 ∈ algorithms := List.mem_cons_of_mem _ (List.mem_cons_of_mem _ List.mem_cons_self)

theorem derives_iff {alg : Algorithm} (known : alg ∈ algorithms) (derives : alg.derives = true) :
    alg = sha256 ∨ alg = sha384 ∨ alg = sha512 := by
  have named : ∀ alg ∈ algorithms, alg.derives = true →
      alg.name = sha256.name ∨ alg.name = sha384.name ∨ alg.name = sha512.name := by decide
  rcases named alg known derives with one | two | three
  · exact Or.inl (name_inj known sha256_known one)
  · exact Or.inr (Or.inl (name_inj known sha384_known two))
  · exact Or.inr (Or.inr (name_inj known sha512_known three))

theorem looksHex_of_hex {text : String} {bytes : List UInt8} (hex : toAsciiLowercase text = Library.Encodings.hexEncode bytes)
    (width : bytes.length = 32) : LooksHex text := by
  have chars := lower_digits hex
  constructor
  · have count := congrArg List.length chars
    rw [List.length_map, length_hexChars, width] at count
    exact count
  · intro c mem
    apply mem_hexChars
    rw [← chars]
    exact List.mem_map_of_mem mem

theorem spells_of_looksHex {text : String} (hex : LooksHex text) : ∃ bytes, Spells text bytes ∧ bytes.length = 32 := by
  have digits : ∀ c ∈ text.toList.map asciiLower, c ∈ hexDigits := by
    intro c mem
    obtain ⟨d, inside, rfl⟩ := List.mem_map.1 mem
    exact hex.2 d inside
  have count : (text.toList.map asciiLower).length = 64 := by rw [List.length_map, hex.1]
  have back := hexChars_hexPairs digits (by omega)
  refine ⟨hexPairs (text.toList.map asciiLower), Or.inl ?_, ?_⟩
  · rw [Library.Encodings.hexEncode, back, ← toList_lower, String.ofList_toList]
  · have width := length_hexChars (hexPairs (text.toList.map asciiLower))
    rw [back] at width
    omega

/-- Only a digest of 48 bytes is spelled like one of another length: in base 64, like 32 bytes in hexadecimal. -/
theorem spelled_twice {text : String} {bytes others : List UInt8} (one : Spells text bytes) (two : Spells text others)
    (first : bytes.length = 32 ∨ bytes.length = 48 ∨ bytes.length = 64)
    (second : others.length = 32 ∨ others.length = 48 ∨ others.length = 64) (shorter : bytes.length < others.length) :
    others.length = 48 ∧ LooksHex text := by
  rcases one with hex | ⟨alphabet, padded, spelled⟩
  · have width := byteLength_hex hex
    rcases two with again | ⟨alphabet, padded, spelled⟩
    · rw [hexEncode_inj (hex.symm.trans again)] at shorter
      omega
    · have size := byteLength_base64 alphabet padded others
      rw [← spelled] at size
      have fits : bytes.length = 32 ∧ others.length = 48 := by
        cases padded with
        | false =>
          simp only [Bool.false_eq_true, if_false] at size
          omega
        | true =>
          simp only [if_true] at size
          omega
      exact ⟨fits.2, looksHex_of_hex hex fits.1⟩
  · rcases two with hex | ⟨other, filled, again⟩
    · have width := byteLength_hex hex
      have short := base64_short (by omega) spelled
      omega
    · rw [base64Encode_inj (spelled.symm.trans again)] at shorter
      omega

variable {codecs : Codecs}

theorem toOption_identify (conform : codecs.Conform) {alg : Algorithm} (known : alg ∈ algorithms) (derives : alg.derives = true)
    {value : String} {bytes : List UInt8} (spelled : Spells (trim value) bytes) (length : bytes.length = alg.bytes) :
    (identify codecs alg.name value).toOption = some (contentId alg bytes) := by
  rw [(identify_ok conform).2 ⟨alg, bytes, ⟨algorithm_named known, spelled, length⟩, derives, rfl⟩]
  rfl

theorem identify_none (conform : codecs.Conform) {alg : Algorithm} (known : alg ∈ algorithms) {value : String}
    (silent : ∀ bytes, Spells (trim value) bytes → bytes.length ≠ alg.bytes) :
    (identify codecs alg.name value).toOption = none := by
  cases made : identify codecs alg.name value with
  | error e => rfl
  | ok id =>
    obtain ⟨other, bytes, denotes, _⟩ := (identify_ok conform).1 made
    have same : other = alg := Option.some.inj (denotes.algorithm.symm.trans (algorithm_named known))
    exact absurd (same ▸ denotes.length) (silent bytes denotes.spelled)

/-- A digest is trimmed before it is read. -/
theorem identify_congr {value other : String} (same : trim value = trim other) (name : String) :
    identify codecs name value = identify codecs name other := by
  unfold Domain.Digest.identify decodeDigest
  rw [same]

theorem findSome_three {α β : Type} (f : α → Option β) (one two three : α) :
    [one, two, three].findSome? f = (f one).or ((f two).or (f three)) := by
  cases first : f one with
  | some found => simp [first]
  | none => cases second : f two <;> cases third : f three <;> simp [first, second, third]

/-- A text without the form of an identifier is taken for a digest of each algorithm in turn. -/
theorem parseQuery_bare {value : String} {bytes : List UInt8} (spelled : Spells (trim value) bytes) (some_ : 4 < bytes.length) :
    parseQuery codecs value = ((identify codecs sha256.name value).toOption.or
      ((identify codecs sha384.name value).toOption.or (identify codecs sha512.name value).toOption)).map ContentId.iri := by
  have filled : trim value ≠ "" := by
    intro empty
    have none_ : byteLength (trim value) = 0 := by rw [empty]; rfl
    rcases spelled with hex | ⟨alphabet, padded, based⟩
    · have width := byteLength_hex hex
      omega
    · have width := byteLength_base64 alphabet padded bytes
      rw [← based, none_] at width
      omega
  have bare : stripPrefix (trim value) "ni:///" = none := by
    cases stripped : stripPrefix (trim value) "ni:///" with
    | none => rfl
    | some rest =>
      have colon : ':' ∈ (trim value).toList := by
        rw [stripPrefix_eq_some.1 stripped, String.toList_append]
        exact List.mem_append_left _ (by decide)
      exact absurd rfl (spells_plain spelled ':' colon).2
  have three : algorithms.filter Algorithm.derives = [sha256, sha384, sha512] := rfl
  unfold Domain.Digest.parseQuery
  dsimp only
  have again : trim (trim value) = trim value := trim_visible (fun c mem => (spells_plain spelled c mem).1)
  rw [if_neg filled, bare, three]
  dsimp only
  rw [findSome_three, identify_congr again, identify_congr again, identify_congr again]

/-- A bare digest finds its bytes unless it is one of 48 bytes that reads as 32 bytes in hexadecimal. -/
theorem bare_digest_found_iff (conform : codecs.Conform) {name value : String} {id : ContentId}
    (accepted : identify codecs name value = .ok id) :
    parseQuery codecs value = some id.iri ↔
      ¬((algorithm name).map Algorithm.name = some "sha-384" ∧ LooksHex (trim value)) := by
  obtain ⟨alg, bytes, denotes, derives, rfl⟩ := (identify_ok conform).1 accepted
  have known := algorithm_mem denotes.algorithm
  have spelled := denotes.spelled
  have made := toOption_identify conform known derives spelled denotes.length
  rw [parseQuery_bare spelled (by rw [denotes.length]; exact bytes_long alg known), denotes.algorithm]
  rcases derives_iff known derives with rfl | rfl | rfl
  · rw [made]
    simp [sha256]
  · by_cases hex : LooksHex (trim value)
    · obtain ⟨others, again, width⟩ := spells_of_looksHex hex
      rw [toOption_identify conform sha256_known rfl again width, Option.some_or, Option.map_some]
      refine iff_of_false ?_ (not_not_intro ⟨rfl, hex⟩)
      intro same
      have algorithms_ := ((contentId_inj sha256_known sha384_known).1 (Option.some.inj same)).1
      exact absurd (congrArg Algorithm.bytes algorithms_) (by decide)
    · have first : (identify codecs sha256.name value).toOption = none := by
        apply identify_none conform sha256_known
        intro others again width
        have length := denotes.length
        exact hex (spelled_twice again spelled (Or.inl width) (Or.inr (Or.inl length)) (by rw [width, length]; decide)).2
      rw [first, made]
      simp [hex]
  · have length := denotes.length
    have first : (identify codecs sha256.name value).toOption = none := by
      apply identify_none conform sha256_known
      intro others again width
      have twice := spelled_twice again spelled (Or.inl width) (Or.inr (Or.inr length)) (by rw [width, length]; decide)
      rw [length] at twice
      exact absurd twice.1 (by decide)
    have second : (identify codecs sha384.name value).toOption = none := by
      apply identify_none conform sha384_known
      intro others again width
      have twice := spelled_twice again spelled (Or.inr (Or.inl width)) (Or.inr (Or.inr length)) (by rw [width, length]; decide)
      rw [length] at twice
      exact absurd twice.1 (by decide)
    rw [first, second, made]
    simp [sha512]

def capitals : String := "AAAAAAAAAAAAAAAAAAAAAAAAAAAAAAAAAAAAAAAAAAAAAAAAAAAAAAAAAAAAAAAA"

theorem bare_digest_found : ∃ id, identify specified "sha256" upperDigest = .ok id ∧
    parseQuery specified upperDigest = some id.iri := by
  have named : algorithm "sha256" = some sha256 := algorithm_spelled sha256_known (by decide)
  have made : identify specified "sha256" upperDigest = .ok (contentId sha256 (List.replicate 32 0xAB)) :=
    (identify_ok specified_conform).2 ⟨sha256, _, ⟨named, Or.inl (by decide), rfl⟩, rfl, rfl⟩
  have other : ¬((algorithm "sha256").map Algorithm.name = some "sha-384" ∧ LooksHex (trim upperDigest)) := by
    rw [named]
    exact fun both => absurd both.1 (by decide)
  exact ⟨_, made, (bare_digest_found_iff specified_conform made).2 other⟩

/-- A digest of 48 zero bytes in base 64 is taken for one of 32 bytes in hexadecimal. -/
theorem zeros_misread : ∃ id, identify specified "sha-384" capitals = .ok id ∧ parseQuery specified capitals ≠ some id.iri := by
  have named : algorithm "sha-384" = some sha384 := algorithm_spelled sha384_known (by decide)
  have based : Spells (trim capitals) (List.replicate 48 0) := Or.inr ⟨.standard, false, by decide⟩
  have hex : Spells (trim capitals) (List.replicate 32 0xAA) := Or.inl (by decide)
  have made : identify specified "sha-384" capitals = .ok (contentId sha384 (List.replicate 48 0)) :=
    (identify_ok specified_conform).2 ⟨sha384, _, ⟨named, based, rfl⟩, rfl, rfl⟩
  have first := toOption_identify specified_conform sha256_known rfl hex rfl
  have parsed : parseQuery specified capitals = some (contentId sha256 (List.replicate 32 0xAA)).iri := by
    rw [parseQuery_bare hex (by decide), first, Option.some_or, Option.map_some]
  refine ⟨contentId sha384 (List.replicate 48 0), made, ?_⟩
  rw [parsed]
  intro same
  have alike := (contentId_inj sha256_known sha384_known).1 (Option.some.inj same)
  exact absurd (congrArg Algorithm.bytes alike.1) (by decide)

end Searching

end ToolArtifactRegistry.Laws
