import ToolArtifactRegistry.Domain.Artifact
import ToolArtifactRegistry.Library.Decimals

/-! A distribution's statements sorted by predicate, and what each getter reads of them. -/
namespace ToolArtifactRegistry.Domain.Fields

open Library.Rdf Library.Text Ids Model Store Rdf Build

/-- An empty text is as good as none. -/
def filled (value : Option String) : Option String := value.filter (fun text => text != "")

section Getters

variable (platform : Platform) {ns localName : String}

theorem ofPredicate_finish (predicate : String) (subject : Node) (graph : String) (statements : List Statement) :
    Props.ofPredicate predicate (finish subject graph statements) = said predicate statements := by
  unfold Props.ofPredicate finish said
  rw [List.filter_map, List.map_map]
  rfl

theorem keyed_own {key : String} {subject : Node} (same : subjectKey subject = key) (graph : String)
    (statements : List Statement) : Props.keyed key (finish subject graph statements) = finish subject graph statements := by
  apply List.filter_eq_self.2
  intro quad mem
  rw [(mem_finish.1 mem).1]
  exact decide_eq_true same

theorem keyed_other {key : String} {subject : Node} (other : subjectKey subject ≠ key) (graph : String)
    (statements : List Statement) : Props.keyed key (finish subject graph statements) = [] := by
  apply List.filter_eq_nil_iff.2
  intro quad mem
  rw [(mem_finish.1 mem).1, decide_eq_true_eq]
  exact other

theorem filled_some {value : String} (some_ : value ≠ "") : filled (some value) = some value := by
  rw [filled, Option.filter_some, if_pos (bne_iff_ne.2 some_)]

theorem value_text (value : String) :
    ((text ns localName value).map Prod.snd).head?.map Props.termValue = filled (some value) := by
  by_cases empty : value = ""
  · rw [empty]
    rfl
  · rw [text, if_neg empty, filled_some empty]
    rfl

theorem value_optText (value : Option String) :
    ((optText ns localName value).map Prod.snd).head?.map Props.termValue = filled value := by
  cases value with
  | none => rfl
  | some value => exact value_text value

/-- A target that is no IRI is kept, but not read as one. -/
theorem named_link {target : String} (some_ : target ≠ "") :
    ((link platform ns localName target).map Prod.snd).head?.bind Props.namedIri =
      if platform.validIri target then some target else none := by
  rw [link, if_neg some_]
  split <;> rfl

theorem value_link {target : String} (valid : target ≠ "" → platform.validIri target = true) :
    ((link platform ns localName target).map Prod.snd).head?.bind Props.namedIri = filled (some target) := by
  by_cases empty : target = ""
  · rw [empty]
    rfl
  · rw [named_link platform empty, if_pos (valid empty), filled_some empty]

theorem value_optLink {target : Option String} (valid : ∀ iri ∈ filled target, platform.validIri iri = true) :
    ((optLink platform ns localName target).map Prod.snd).head?.bind Props.namedIri = filled target := by
  cases target with
  | none => rfl
  | some target => exact value_link platform (fun some_ => valid target (filled_some some_))

theorem value_optInt {value : Option Int}
    (fits : ∀ n ∈ value, -9223372036854775808 ≤ n ∧ n ≤ 9223372036854775807) :
    (((optInt ns localName value).map Prod.snd).head?.map Props.termValue).bind parseI64 = value := by
  cases value with
  | none => rfl
  | some n =>
    obtain ⟨low, high⟩ := fits n rfl
    exact parseI64_toString low high

end Getters

section Distributions

variable (platform : Platform) (draw : Draw) (d : DistributionIn)

/-- The availability a distribution is written with. -/
def written : String := d.availability.getD "public"

def distributionFields : List (String × List Statement) :=
  [(Ns.rdfType, a Artifact.typeDistribution),
    (Ns.t Ns.dct "title", optText Ns.dct "title" d.title),
    (Ns.t Ns.dcat "accessURL", optLink platform Ns.dcat "accessURL" d.accessUrl),
    (Ns.t Ns.dcat "downloadURL",
      if written d ≠ "metadata-only" then optLink platform Ns.dcat "downloadURL" d.downloadUrl else []),
    (Ns.t Ns.dcat "mediaType", optText Ns.dcat "mediaType" d.mediaType),
    (Ns.t Ns.dct "format", optText Ns.dct "format" d.mediaType),
    (Ns.t Ns.dcat "byteSize", optInt Ns.dcat "byteSize" d.byteSize),
    (Ns.t Ns.dct "conformsTo", optLink platform Ns.dct "conformsTo" d.conformsTo),
    (Ns.t Ns.dct "license", optLink platform Ns.dct "license" d.license),
    (Ns.t Ns.dcat "accessService", optLink platform Ns.dcat "accessService" d.accessService),
    (Ns.t Ns.tar "accessProtocol", optText Ns.tar "accessProtocol" d.accessProtocol),
    (Ns.t Ns.tar "authMethod", optText Ns.tar "authMethod" d.authMethod),
    (Ns.t Ns.tar "availability", text Ns.tar "availability" (written d)),
    (Ns.t Ns.dct "accessRights", optLink platform Ns.dct "accessRights" (accessRight (written d))),
    (Ns.t Ns.tar "accessRequestURL", optLink platform Ns.tar "accessRequestURL" d.accessRequestUrl),
    (Ns.t Ns.spdx "checksum",
      if d.checksum.isSome then [(Ns.t Ns.spdx "checksum", (Artifact.checksumNode draw).term)] else []),
    (Ns.t Ns.prov "specializationOf",
      optLink platform Ns.prov "specializationOf" (Artifact.contentOf platform d.checksum))]

theorem field_at (place : Nat) {field : String × List Statement} (here : (distributionFields platform draw d)[place]? = some field) :
    field ∈ distributionFields platform draw d := List.mem_of_getElem? here

theorem distributionStatements_eq : Artifact.distributionStatements platform draw d =
    (distributionFields platform draw d).flatMap Prod.snd := by
  unfold Artifact.distributionStatements distributionFields written
  simp only [List.flatMap_cons, List.flatMap_nil, List.append_assoc, List.append_nil]

theorem distribution_sorted : Sorted (distributionFields platform draw d) := by
  have download : Only (Ns.t Ns.dcat "downloadURL")
      (if written d ≠ "metadata-only" then optLink platform Ns.dcat "downloadURL" d.downloadUrl else []) := by
    split
    · exact only_optLink platform Ns.dcat "downloadURL" _
    · simp [Only]
  have checksum : Only (Ns.t Ns.spdx "checksum")
      (if d.checksum.isSome then [(Ns.t Ns.spdx "checksum", (Artifact.checksumNode draw).term)] else []) := by
    split <;> simp [Only]
  unfold distributionFields
  simp only [sorted_cons, sorted_nil, and_true]
  and_intros
  all_goals with_reducible first
    | exact download
    | exact checksum
    | exact only_a _
    | exact only_text _ _ _
    | exact only_optText _ _ _
    | exact only_optInt _ _ _
    | exact only_optLink _ _ _ _

def distributionPredicates : List String :=
  [Ns.rdfType, Ns.t Ns.dct "title", Ns.t Ns.dcat "accessURL", Ns.t Ns.dcat "downloadURL", Ns.t Ns.dcat "mediaType",
    Ns.t Ns.dct "format", Ns.t Ns.dcat "byteSize", Ns.t Ns.dct "conformsTo", Ns.t Ns.dct "license",
    Ns.t Ns.dcat "accessService", Ns.t Ns.tar "accessProtocol", Ns.t Ns.tar "authMethod", Ns.t Ns.tar "availability",
    Ns.t Ns.dct "accessRights", Ns.t Ns.tar "accessRequestURL", Ns.t Ns.spdx "checksum", Ns.t Ns.prov "specializationOf"]

theorem distribution_apart : ((distributionFields platform draw d).map Prod.fst).Nodup := by
  have predicates : (distributionFields platform draw d).map Prod.fst = distributionPredicates := by
    simp only [distributionFields, List.map_cons, List.map_nil, distributionPredicates]
  rw [predicates]
  decide

/-- What a distribution's statements say under a predicate is what its field of that predicate says. -/
theorem distribution_said {predicate : String} {statements : List Statement}
    (mem : (predicate, statements) ∈ distributionFields platform draw d) :
    said predicate (Artifact.distributionStatements platform draw d) = statements.map Prod.snd := by
  rw [distributionStatements_eq]
  exact said_field (distribution_sorted platform draw d) (distribution_apart platform draw d) mem

end Distributions

end ToolArtifactRegistry.Domain.Fields
