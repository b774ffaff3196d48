import ToolArtifactRegistry.Domain.Distribution
import ToolArtifactRegistry.Laws.Checking
import ToolArtifactRegistry.Library.Text

/-! A distribution as it is read back, against the one that was written. -/
namespace ToolArtifactRegistry.Laws

open Library.Rdf Library.Text Ids Model Store Rdf Build Domain Domain.Fields
open Domain.Content (algorithm)
open Checking (algorithmIri readBack readBack_spelling)

/-- The key the node of a checksum is found under. -/
def checksumKey (draw : Draw) : String := "_:" ++ draw.blank []

section

variable (platform : Platform) (iri : String) (draw : Draw) (d : DistributionIn)

theorem keyed_concat (key : String) (left right : List Quad) :
    Props.keyed key (left ++ right) = Props.keyed key left ++ Props.keyed key right := List.filter_append ..

theorem ofPredicate_append (predicate : String) (left right : List Quad) :
    Props.ofPredicate predicate (left ++ right) = Props.ofPredicate predicate left ++ Props.ofPredicate predicate right := by
  rw [Props.ofPredicate, List.filter_append, List.map_append]
  rfl

variable {iri}

theorem key_apart (named : startsWith iri "_:" = false) : checksumKey draw ≠ iri := by
  intro same
  have starts : startsWith iri "_:" = true := by
    rw [← same, checksumKey, startsWith, String.toList_append]
    exact List.isPrefixOf_iff_prefix.2 (List.prefix_append _ _)
  rw [starts] at named
  cases named

theorem keyed_body : Props.keyed iri (describeLocal iri (Artifact.distributionStatements platform draw d)) =
    finish (.named iri) Ns.gLocal (Artifact.distributionStatements platform draw d) := by
  have own : subjectKey (.named iri) = iri := rfl
  exact keyed_own own _ _

theorem subjectKey_checksum : subjectKey (Artifact.checksumNode draw) = checksumKey draw := rfl

/-- The name of the bytes is no key of a blank node. -/
theorem contentOf_named {checksum : Option ChecksumIn} {name : String} (found : Artifact.contentOf platform checksum = some name) :
    name.toList.head? = some 'n' := by
  obtain ⟨c, _, identified⟩ := Option.bind_eq_some_iff.1 found
  unfold Content.identify at identified
  obtain ⟨alg, _, identified⟩ := Option.bind_eq_some_iff.1 identified
  obtain ⟨digest, _, identified⟩ := Option.bind_eq_some_iff.1 identified
  split at identified
  · rw [← Option.some.inj identified]
    simp only [String.toList_append, List.append_assoc]
    rfl
  · cases identified

/-- Under any predicate but the type, the record says what its statements say. -/
theorem own_said (named : startsWith iri "_:" = false) {predicate : String} (other : predicate ≠ Ns.rdfType) :
    Props.ofPredicate predicate (Props.keyed iri (Artifact.distributionQuads platform iri draw d)) =
      said predicate (Artifact.distributionStatements platform draw d) := by
  have checksum : Props.keyed iri (Artifact.checksumQuads platform draw d.checksum) = [] := by
    cases d.checksum with
    | none => rfl
    | some c =>
      have other : subjectKey (Artifact.checksumNode draw) ≠ iri := key_apart draw named
      exact keyed_other other _ _
  have content : Props.ofPredicate predicate (Props.keyed iri (Artifact.contentQuads platform d.checksum)) = [] := by
    unfold Artifact.contentQuads
    split
    · rename_i name _
      by_cases same : subjectKey (.named name) = iri
      · rw [describeLocal, keyed_own same, ofPredicate_finish]
        exact said_other (only_a Artifact.typeEntity) (Ne.symm other)
      · rw [describeLocal, keyed_other same]
        rfl
    · rfl
  rw [Artifact.distributionQuads, keyed_concat, keyed_concat, ofPredicate_append, ofPredicate_append, keyed_body, checksum,
    content, ofPredicate_finish]
  simp [Props.ofPredicate]

theorem own_nonempty : Props.keyed iri (Artifact.distributionQuads platform iri draw d) ≠ [] := by
  rw [Artifact.distributionQuads, keyed_concat, keyed_concat, keyed_body]
  simp [Artifact.distributionStatements, a, finish]

/-- Under the key of its node there is the checksum. -/
theorem checksum_keyed (named : startsWith iri "_:" = false) {c : ChecksumIn} (given : d.checksum = some c) :
    Props.keyed (checksumKey draw) (Artifact.distributionQuads platform iri draw d) =
      finish (Artifact.checksumNode draw) Ns.gLocal (Artifact.checksumStatements platform c) := by
  have apart := key_apart draw named
  have body : Props.keyed (checksumKey draw) (describeLocal iri (Artifact.distributionStatements platform draw d)) = [] :=
    by
      have other : subjectKey (.named iri) ≠ checksumKey draw := fun same => apart same.symm
      exact keyed_other other _ _
  have content : Props.keyed (checksumKey draw) (Artifact.contentQuads platform d.checksum) = [] := by
    unfold Artifact.contentQuads
    split
    · rename_i name found
      apply keyed_other
      intro same
      have first := contentOf_named platform found
      have key : name = checksumKey draw := same
      rw [key, checksumKey, String.toList_append] at first
      cases first
    · rfl
  have node : Props.keyed (checksumKey draw) (Artifact.checksumQuads platform draw d.checksum) =
      finish (Artifact.checksumNode draw) Ns.gLocal (Artifact.checksumStatements platform c) := by
    rw [given]
    exact keyed_own (subjectKey_checksum draw) _ _
  rw [Artifact.distributionQuads, keyed_concat, keyed_concat, body, content, node, List.append_nil, List.nil_append]

/-- The property map a distribution is read from. -/
@[irreducible] def ownRecord (platform : Platform) (iri : String) (draw : Draw) (d : DistributionIn) : Props :=
  ⟨iri, Props.keyed iri (Artifact.distributionQuads platform iri draw d), []⟩

theorem record_terms (named : startsWith iri "_:" = false) {ns localName : String} {statements : List Statement}
    (mem : (Ns.t ns localName, statements) ∈ distributionFields platform draw d) (other : Ns.t ns localName ≠ Ns.rdfType) :
    (ownRecord platform iri draw d).terms ns localName = statements.map Prod.snd := by
  rw [Props.terms, ownRecord, own_said platform draw d named other, distribution_said platform draw d mem]

theorem algorithmIri_filled (name : String) : algorithmIri name ≠ "" := by
  intro empty
  have letters := congrArg String.toList empty
  rw [algorithmIri, String.toList_append, String.toList_append] at letters
  cases letters

/-- The algorithm that is read back. -/
def readName (name : String) : String := if platform.validIri (algorithmIri name) then readBack name else "sha256"

theorem checksum_terms (c : ChecksumIn) :
    said (Ns.t Ns.spdx "algorithm") (Artifact.checksumStatements platform c) =
        (link platform Ns.spdx "algorithm" (algorithmIri c.algorithm)).map Prod.snd ∧
      said (Ns.t Ns.spdx "checksumValue") (Artifact.checksumStatements platform c) =
        (text Ns.spdx "checksumValue" c.value).map Prod.snd := by
  have fields : Artifact.checksumStatements platform c = [(Ns.rdfType, a (Ns.spdx ++ "Checksum")),
      (Ns.t Ns.spdx "algorithm", link platform Ns.spdx "algorithm" (algorithmIri c.algorithm)),
      (Ns.t Ns.spdx "checksumValue", text Ns.spdx "checksumValue" c.value)].flatMap Prod.snd := by
    simp [Artifact.checksumStatements, algorithmIri]
  have sorted : Sorted [(Ns.rdfType, a (Ns.spdx ++ "Checksum")),
      (Ns.t Ns.spdx "algorithm", link platform Ns.spdx "algorithm" (algorithmIri c.algorithm)),
      (Ns.t Ns.spdx "checksumValue", text Ns.spdx "checksumValue" c.value)] := by
    simp only [sorted_cons, sorted_nil, and_true]
    exact ⟨only_a _, only_link _ _ _ _, only_text _ _ _⟩
  have apart : [Ns.rdfType, Ns.t Ns.spdx "algorithm", Ns.t Ns.spdx "checksumValue"].Nodup := by decide
  rw [fields]
  exact ⟨said_field sorted apart (by simp), said_field sorted apart (by simp)⟩

theorem checksumFrom_none {p d : Props} (keys : d.nodeKeys Ns.spdx "checksum" = []) : Artifact.checksumFrom p d = none := by
  rw [Artifact.checksumFrom, keys]
  rfl

theorem checksumFrom_some {p d c : Props} {key : String} (keys : d.nodeKeys Ns.spdx "checksum" = [some key])
    (nested : p.nestedFor key = some c) :
    Artifact.checksumFrom p d = some
      { algorithm := ((c.iri Ns.spdx "algorithm").map (fun named =>
          Artifact.trimPrefix "checksumAlgorithm_" named.length (iriTail named))).getD "sha256"
        value := (c.str Ns.spdx "checksumValue").getD "" } := by
  rw [Artifact.checksumFrom, keys]
  simp only [List.head?_cons, Option.bind_eq_bind, Option.bind_some, nested, Option.pure_def]

theorem checksum_reread (named : startsWith iri "_:" = false) :
    Artifact.checksumFrom (Props.fromQuads iri (Artifact.distributionQuads platform iri draw d)) (ownRecord platform iri draw d) =
      d.checksum.map (fun c => ⟨readName platform c.algorithm, c.value⟩) := by
  have terms : (ownRecord platform iri draw d).terms Ns.spdx "checksum" = (if d.checksum.isSome then
      [(Ns.t Ns.spdx "checksum", (Artifact.checksumNode draw).term)] else []).map Prod.snd :=
    record_terms platform draw d named (field_at platform draw d 15 rfl) (by decide)
  cases given : d.checksum with
  | none =>
    rw [given] at terms
    exact checksumFrom_none (by rw [Props.nodeKeys, terms]; rfl)
  | some c =>
    rw [given] at terms
    have keys : (ownRecord platform iri draw d).nodeKeys Ns.spdx "checksum" = [some (checksumKey draw)] := by
      rw [Props.nodeKeys, terms]
      rfl
    have keyed := checksum_keyed platform draw d named given
    obtain ⟨names, values⟩ := checksum_terms platform c
    have nested : (Props.fromQuads iri (Artifact.distributionQuads platform iri draw d)).nestedFor (checksumKey draw) =
        some ⟨checksumKey draw, finish (Artifact.checksumNode draw) Ns.gLocal (Artifact.checksumStatements platform c), []⟩ := by
      unfold Props.nestedFor Props.fromQuads
      rw [keyed]
      rfl
    have name : ((Props.mk (checksumKey draw) (finish (Artifact.checksumNode draw) Ns.gLocal
        (Artifact.checksumStatements platform c)) []).iri Ns.spdx "algorithm") =
        if platform.validIri (algorithmIri c.algorithm) then some (algorithmIri c.algorithm) else none := by
      unfold Props.iri Props.one Props.terms
      rw [ofPredicate_finish, names]
      exact named_link platform (algorithmIri_filled c.algorithm)
    have value : ((Props.mk (checksumKey draw) (finish (Artifact.checksumNode draw) Ns.gLocal
        (Artifact.checksumStatements platform c)) []).str Ns.spdx "checksumValue") = filled (some c.value) := by
      unfold Props.str Props.one Props.terms
      rw [ofPredicate_finish, values]
      exact value_text c.value
    have read : Option.getD (filled (some c.value)) "" = c.value := by
      by_cases empty : c.value = ""
      · rw [empty]
        rfl
      · rw [filled_some empty]
        rfl
    have chosen : ((if platform.validIri (algorithmIri c.algorithm) then some (algorithmIri c.algorithm) else none).map
        (fun named => Artifact.trimPrefix "checksumAlgorithm_" named.length (iriTail named))).getD "sha256" =
          readName platform c.algorithm := by
      unfold readName
      split <;> rfl
    rw [checksumFrom_some keys nested, name, value, chosen, read, Option.map_some]

/-- The link fields of a distribution are absent or IRIs. -/
def LinksValid : Prop :=
  ∀ target ∈ [d.accessUrl, d.downloadUrl, d.conformsTo, d.license, d.accessService, d.accessRequestUrl],
    ∀ iri ∈ filled target, platform.validIri iri = true

/-- Every field but the algorithm of the checksum is read as it was written, empty texts as absent. -/
structure FieldsReread (out : Distribution) : Prop where
  title : out.title = filled d.title
  accessUrl : out.accessUrl = filled d.accessUrl
  downloadUrl : out.downloadUrl = if Fields.written d = "metadata-only" then none else filled d.downloadUrl
  mediaType : out.mediaType = filled d.mediaType
  byteSize : out.byteSize = d.byteSize
  conformsTo : out.conformsTo = filled d.conformsTo
  license : out.license = filled d.license
  accessService : out.accessService = filled d.accessService
  accessProtocol : out.accessProtocol = filled d.accessProtocol
  authMethod : out.authMethod = filled d.authMethod
  availability : out.availability = (filled d.availability).getD "public"
  accessRequestUrl : out.accessRequestUrl = filled d.accessRequestUrl
  value : out.checksum.map ChecksumIn.value = d.checksum.map ChecksumIn.value

theorem record_str (named : startsWith iri "_:" = false) {ns localName : String} {value : Option String}
    (mem : (Ns.t ns localName, optText ns localName value) ∈ distributionFields platform draw d)
    (other : Ns.t ns localName ≠ Ns.rdfType) : (ownRecord platform iri draw d).str ns localName = filled value := by
  rw [Props.str, Props.one, record_terms platform draw d named mem other]
  exact value_optText value

theorem record_iri (named : startsWith iri "_:" = false) {ns localName : String} {target : Option String}
    (mem : (Ns.t ns localName, optLink platform ns localName target) ∈ distributionFields platform draw d)
    (other : Ns.t ns localName ≠ Ns.rdfType) (valid : ∀ iri ∈ filled target, platform.validIri iri = true) :
    (ownRecord platform iri draw d).iri ns localName = filled target := by
  rw [Props.iri, Props.one, record_terms platform draw d named mem other]
  exact value_optLink platform valid

theorem download_reread (named : startsWith iri "_:" = false)
    (valid : ∀ iri ∈ filled d.downloadUrl, platform.validIri iri = true) :
    (ownRecord platform iri draw d).iri Ns.dcat "downloadURL" =
      if Fields.written d = "metadata-only" then none else filled d.downloadUrl := by
  have terms : (ownRecord platform iri draw d).terms Ns.dcat "downloadURL" = (if Fields.written d ≠ "metadata-only" then
      optLink platform Ns.dcat "downloadURL" d.downloadUrl else []).map Prod.snd :=
    record_terms platform draw d named (field_at platform draw d 3 rfl) (by decide)
  rw [Props.iri, Props.one, terms]
  by_cases closed : Fields.written d = "metadata-only"
  · rw [if_neg (fun open_ => open_ closed), if_pos closed]
    rfl
  · rw [if_pos closed, if_neg closed]
    exact value_optLink platform valid

theorem availability_reread (named : startsWith iri "_:" = false) :
    ((ownRecord platform iri draw d).str Ns.tar "availability").getD "public" = (filled d.availability).getD "public" := by
  have terms : (ownRecord platform iri draw d).terms Ns.tar "availability" =
      (text Ns.tar "availability" (Fields.written d)).map Prod.snd :=
    record_terms platform draw d named (field_at platform draw d 12 rfl) (by decide)
  rw [Props.str, Props.one, terms, value_text, Fields.written]
  cases d.availability with
  | none => rfl
  | some availability => rfl

theorem byteSize_reread (named : startsWith iri "_:" = false)
    (fits : ∀ n ∈ d.byteSize, -9223372036854775808 ≤ n ∧ n ≤ 9223372036854775807) :
    (ownRecord platform iri draw d).i64 Ns.dcat "byteSize" = d.byteSize := by
  have terms : (ownRecord platform iri draw d).terms Ns.dcat "byteSize" =
      (optInt Ns.dcat "byteSize" d.byteSize).map Prod.snd :=
    record_terms platform draw d named (field_at platform draw d 6 rfl) (by decide)
  rw [Props.i64, Props.str, Props.one, terms]
  exact value_optInt fits

/-- A distribution as its property map gives it. -/
def readOut (p d : Props) (key : String) : Distribution where
  iri := key
  contentIdentifier := Artifact.contentIdentifier d
  title := d.str Ns.dct "title"
  accessUrl := d.iri Ns.dcat "accessURL"
  downloadUrl := d.iri Ns.dcat "downloadURL"
  mediaType := d.str Ns.dcat "mediaType"
  byteSize := d.i64 Ns.dcat "byteSize"
  checksum := Artifact.checksumFrom p d
  conformsTo := d.iri Ns.dct "conformsTo"
  license := d.iri Ns.dct "license"
  accessService := d.iri Ns.dcat "accessService"
  accessProtocol := d.str Ns.tar "accessProtocol"
  authMethod := d.str Ns.tar "authMethod"
  availability := (d.str Ns.tar "availability").getD "public"
  accessRequestUrl := d.iri Ns.tar "accessRequestURL"

theorem distributionFrom_some {p d : Props} {key : String} (nested : p.nestedFor key = some d) :
    Artifact.distributionFrom p (some key) = some (readOut p d key) := by
  rw [Artifact.distributionFrom]
  simp only [Option.bind_eq_bind, Option.bind_some, nested, Option.pure_def, readOut]

/-- The fields that are read of a record as it was written. -/
theorem fields_reread (named : startsWith iri "_:" = false) (links : LinksValid platform d)
    (fits : ∀ n ∈ d.byteSize, -9223372036854775808 ≤ n ∧ n ≤ 9223372036854775807) :
    FieldsReread d (readOut (Props.fromQuads iri (Artifact.distributionQuads platform iri draw d)) (ownRecord platform iri draw d) iri) := by
  have text : ∀ (ns localName : String) (value : Option String) (place : Nat),
      (distributionFields platform draw d)[place]? = some (Ns.t ns localName, optText ns localName value) →
      Ns.t ns localName ≠ Ns.rdfType → (ownRecord platform iri draw d).str ns localName = filled value :=
    fun ns localName value place here other => record_str platform draw d named (field_at platform draw d place here) other
  have link : ∀ (ns localName : String) (target : Option String) (place : Nat),
      (distributionFields platform draw d)[place]? = some (Ns.t ns localName, optLink platform ns localName target) →
      Ns.t ns localName ≠ Ns.rdfType →
      target ∈ [d.accessUrl, d.downloadUrl, d.conformsTo, d.license, d.accessService, d.accessRequestUrl] →
      (ownRecord platform iri draw d).iri ns localName = filled target :=
    fun ns localName target place here other among =>
      record_iri platform draw d named (field_at platform draw d place here) other (links target among)
  exact
    { title := text Ns.dct "title" d.title 1 rfl (by decide)
      accessUrl := link Ns.dcat "accessURL" d.accessUrl 2 rfl (by decide) (by simp)
      downloadUrl := download_reread platform draw d named (links _ (by simp))
      mediaType := text Ns.dcat "mediaType" d.mediaType 4 rfl (by decide)
      byteSize := byteSize_reread platform draw d named fits
      conformsTo := link Ns.dct "conformsTo" d.conformsTo 7 rfl (by decide) (by simp)
      license := link Ns.dct "license" d.license 8 rfl (by decide) (by simp)
      accessService := link Ns.dcat "accessService" d.accessService 9 rfl (by decide) (by simp)
      accessProtocol := text Ns.tar "accessProtocol" d.accessProtocol 10 rfl (by decide)
      authMethod := text Ns.tar "authMethod" d.authMethod 11 rfl (by decide)
      availability := availability_reread platform draw d named
      accessRequestUrl := link Ns.tar "accessRequestURL" d.accessRequestUrl 14 rfl (by decide) (by simp)
      value := by
        rw [readOut, checksum_reread platform draw d named, Option.map_map]
        rfl }

/-- The distribution that is read, its checksum under the name that is read of its algorithm. -/
theorem distribution_reread (named : startsWith iri "_:" = false) (links : LinksValid platform d)
    (fits : ∀ n ∈ d.byteSize, -9223372036854775808 ≤ n ∧ n ≤ 9223372036854775807) :
    ∃ out, Artifact.distributionFrom (Props.fromQuads iri (Artifact.distributionQuads platform iri draw d)) (some iri) = some out ∧
      FieldsReread d out ∧ out.checksum = d.checksum.map (fun c => ⟨readName platform c.algorithm, c.value⟩) := by
  have nested : (Props.fromQuads iri (Artifact.distributionQuads platform iri draw d)).nestedFor iri =
      some (ownRecord platform iri draw d) := by
    unfold Props.nestedFor ownRecord Props.fromQuads
    cases held : Props.keyed iri (Artifact.distributionQuads platform iri draw d) with
    | nil => exact absurd held (own_nonempty platform draw d)
    | cons quad rest => rfl
  exact ⟨_, distributionFrom_some nested, fields_reread platform draw d named links fits, checksum_reread platform draw d named⟩

/-- The algorithm comes back as one that is recognised as the same, and every other field as it was. -/
def ReadsBack (iri : String) (draw : Draw) (d : DistributionIn) : Prop :=
  ∃ out, Artifact.distributionFrom (Props.fromQuads iri (Artifact.distributionQuads platform iri draw d)) (some iri) = some out ∧
    FieldsReread d out ∧
      out.checksum.map (fun c => algorithm c.algorithm) = d.checksum.map (fun c => algorithm c.algorithm)

/-- The last word of a text, as far as it is cut off the text's IRI. -/
def leftover (name : String) : String :=
  Artifact.trimPrefix "checksumAlgorithm_" (algorithmIri name).length (iriTail ("checksumAlgorithm_" ++ name))

/-- Pasted into an IRI, the text is a name that is recognised, or its last word is none either; where there is no IRI, it is a
name of the default. -/
def NameKept (name : String) : Prop :=
  if platform.validIri (algorithmIri name) then (algorithm name).isSome ∨ algorithm (leftover name) = none
  else algorithm name = algorithm "sha256"

/-- Of what stands before a separator nothing is left, when something stands after it. -/
theorem iriTail_append {whole left right : String} {first : Char} {rest : List Char}
    (letters : whole.toList = left.toList ++ '#' :: right.toList) (begins : right.toList = first :: rest)
    (letter : (first == '#' || first == '/') = false) : iriTail whole = iriTail right := by
  have pieces : split whole (fun c => c == '#' || c == '/') =
      split left (fun c => c == '#' || c == '/') ++ split right (fun c => c == '#' || c == '/') := by
    unfold split
    rw [letters, piecesOn_append_sep _ _ _ '#' (by decide), List.map_append]
  obtain ⟨piece, mem, some_⟩ := @exists_piece (fun c => c == '#' || c == '/') _ letter rest
  have among : String.ofList piece ∈ (split right (fun c => c == '#' || c == '/')).reverse := by
    rw [List.mem_reverse, split, begins]
    exact List.mem_map_of_mem mem
  have filled : (String.ofList piece != "") = true := by
    rw [bne_iff_ne]
    intro empty
    have letters := congrArg String.toList empty
    rw [String.toList_ofList] at letters
    exact some_ letters
  have found : ((split right (fun c => c == '#' || c == '/')).reverse.find? (fun piece => piece != "")).isSome = true :=
    List.find?_isSome.2 ⟨_, among, filled⟩
  obtain ⟨tail, last⟩ := Option.isSome_iff_exists.1 found
  unfold iriTail
  rw [pieces, List.reverse_append, List.find?_append, last]
  rfl

theorem readBack_leftover (name : String) : readBack name = leftover name := by
  have letters : (algorithmIri name).toList =
      "http://spdx.org/rdf/terms".toList ++ '#' :: ("checksumAlgorithm_" ++ name).toList := by
    unfold algorithmIri Ns.spdx
    simp only [String.toList_append, List.append_assoc]
    rfl
  have begins : ("checksumAlgorithm_" ++ name).toList = 'c' :: ("hecksumAlgorithm_" ++ name).toList := by
    rw [String.toList_append, String.toList_append]
    rfl
  rw [readBack, leftover, iriTail_append letters begins (by decide)]

/-- What is read of an algorithm is recognised as the same one just when the condition on its text holds. -/
theorem readName_same (name : String) : algorithm (readName platform name) = algorithm name ↔ NameKept platform name := by
  unfold readName NameKept
  by_cases valid : platform.validIri (algorithmIri name) = true
  · rw [if_pos valid, if_pos valid]
    cases known : algorithm name with
    | some alg =>
      have same : readBack name = name := readBack_spelling (by rw [known]; rfl)
      rw [same, known]
      simp
    | none =>
      rw [readBack_leftover]
      simp
  · rw [if_neg valid, if_neg valid]
    exact eq_comm

/-- A distribution is read back as it was written just when the text of its algorithm is one that survives the IRI. -/
theorem reads_back_iff (named : startsWith iri "_:" = false) (links : LinksValid platform d)
    (fits : ∀ n ∈ d.byteSize, -9223372036854775808 ≤ n ∧ n ≤ 9223372036854775807) :
    ReadsBack platform iri draw d ↔ ∀ c ∈ d.checksum, NameKept platform c.algorithm := by
  obtain ⟨out, read, fields, checksum⟩ := distribution_reread platform draw d named links fits
  have same : out.checksum.map (fun c => algorithm c.algorithm) = d.checksum.map (fun c => algorithm c.algorithm) ↔
      ∀ c ∈ d.checksum, NameKept platform c.algorithm := by
    rw [checksum]
    cases d.checksum with
    | none => simp
    | some c =>
      simp only [Option.map_some, Option.some.injEq, Option.mem_def, forall_eq']
      exact readName_same platform c.algorithm
  constructor
  · rintro ⟨other, again, _, kept⟩
    rw [read] at again
    cases again
    exact same.1 kept
  · intro kept
    exact ⟨out, read, fields, same.2 kept⟩

end

/-- A file with a digest, and where it is. -/
def digested (algorithm : String) : DistributionIn :=
  { accessUrl := some "https://one.example/file", mediaType := some "", byteSize := some (-3)
    checksum := some ⟨algorithm, "00"⟩ }

theorem digested_links (algorithm : String) : LinksValid strict (digested algorithm) := by
  intro target among iri some_
  simp only [digested, List.mem_cons, List.not_mem_nil, or_false] at among
  rcases among with rfl | rfl | rfl | rfl | rfl | rfl
  · rw [filled_some (by decide), Option.mem_some_iff] at some_
    rw [← some_]
    decide
  all_goals cases some_

theorem digested_reads_back : ReadsBack strict "https://reg.example/d" (Specimen.draw "n") (digested "SHA-512") := by
  refine (reads_back_iff strict (Specimen.draw "n") (digested "SHA-512") (by decide) (digested_links _) ?_).2 ?_
  · intro n some_
    cases some_
    decide
  · intro c given
    cases given
    rw [NameKept, if_pos (by decide +kernel)]
    exact Or.inl (by decide +kernel)

/-- An algorithm spelled with a space is recognised, and read back as another. -/
theorem spaced_reads_default : ¬ReadsBack strict "https://reg.example/d" (Specimen.draw "n") (digested "sha 512") := by
  rintro ⟨out, read, _, kept⟩
  have fits : ∀ n ∈ (digested "sha 512").byteSize, -9223372036854775808 ≤ n ∧ n ≤ 9223372036854775807 := by
    intro n some_
    cases some_
    decide
  obtain ⟨other, again, _, checksum⟩ :=
    @distribution_reread strict "https://reg.example/d" (Specimen.draw "n") (digested "sha 512") (by decide) (digested_links _) fits
  rw [read] at again
  cases again
  rw [checksum] at kept
  have same : algorithm (readName strict "sha 512") = algorithm "sha 512" := Option.some.inj kept
  rw [readName_same, NameKept, if_neg (by decide)] at same
  have names : (algorithm "sha 512").map Content.Algorithm.name ≠ (algorithm "sha256").map Content.Algorithm.name := by
    decide
  exact names (congrArg _ same)

end ToolArtifactRegistry.Laws
