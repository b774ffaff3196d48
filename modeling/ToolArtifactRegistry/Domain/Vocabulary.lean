import ToolArtifactRegistry.Domain.Context
import ToolArtifactRegistry.Ids
import ToolArtifactRegistry.Platform

/-! How the registry holds a vocabulary term. -/
namespace ToolArtifactRegistry.Domain.Vocabulary

open Library.Rdf Library.Text

def classArtifactType : String := "https://w3id.org/tar/ns#ArtifactType"
def classResearchTopic : String := "https://w3id.org/tar/ns#ResearchTopic"
def classArtifactKeyword : String := "https://w3id.org/tar/ns#ArtifactKeyword"
def classLegacyTopic : String := "https://w3id.org/tar/ns#LegacyTopic"

def conceptClasses : List String := [classArtifactType, classResearchTopic, classArtifactKeyword, classLegacyTopic]

inductive Slot where
  | topic
  | type
  deriving DecidableEq

def Slot.class_ : Slot → String
  | .topic => classResearchTopic
  | .type => classArtifactType

/-- The classes a concept carries in any graph, and whether only peers declare it. -/
structure Held where
  classes : List String
  fromPeer : Bool

/-- A peer is authoritative for its own types. -/
def Held.usableAs (held : Held) (slot : Slot) : Bool :=
  decide (slot.class_ ∈ held.classes) || (decide (slot = .type) && held.fromPeer)

def heldIn (data : Dataset) (iri : String) : Option Held :=
  match data.matching (fun quad => decide (quad.subject = .named iri ∧ quad.predicate = Ns.rdfType ∧
      quad.object = .named (Ns.t Ns.skos "Concept"))) with
  | [] => none
  | declared =>
    let classes := (data.matching (fun quad => decide (quad.subject = .named iri ∧ quad.predicate = Ns.rdfType))).filterMap
      (fun quad => quad.object.node?.bind Node.iri?)
    some ⟨(classes.filter (fun class_ => decide (class_ ∈ conceptClasses))).eraseDups,
      declared.all (fun quad => startsWith quad.graph Ns.gPeerPrefix)⟩

/-- The reference data is asked first, then the record store. -/
def holding (platform : Platform) (reference data : Dataset) (iri : String) : Option Held :=
  if platform.validIri iri then (heldIn reference iri).or (heldIn data iri) else none

end ToolArtifactRegistry.Domain.Vocabulary

/-! The registry's own keyword list for artifacts. -/
namespace ToolArtifactRegistry.Domain.Keywords

open Library.Text Ids

structure Keyword where
  slug : String
  label : String
  aliases : List String

def keywords : List Keyword :=
  [⟨"embeddings", "Embeddings", ["embedding", "vector embeddings", "embedding vectors", "word embeddings"]⟩,
    ⟨"owl", "OWL", ["owl ontology", "owl 2", "owl2", "web ontology language"]⟩,
    ⟨"rdf-graphs", "RDF Graphs", ["rdf graph", "rdf", "rdf data", "rdf dataset", "triples", "quads"]⟩,
    ⟨"shacl", "SHACL", ["shacl shapes", "shapes constraint language", "shacl shapes graph"]⟩,
    ⟨"shex", "SHEX", ["shex", "shape expressions", "shex schema"]⟩,
    ⟨"mappings", "Mappings", ["mapping", "rml", "rml mapping", "r2rml", "yarrrml", "obda mapping"]⟩,
    ⟨"sparql-query", "SPARQL query", ["sparql", "sparql queries", "sparql query"]⟩]

def iri (base slug : String) : String := trimSlash base ++ "/keyword/" ++ slug

section

variable (platform : Platform) (base : String)

/-- What two spellings of the same keyword have in common. -/
def fold (text : String) : List Char := (text.toList.filter platform.alphanumeric).flatMap platform.lowercase

def lookup (text : String) : Option Keyword :=
  let key := fold platform text
  if key.isEmpty then none
  else keywords.find? (fun k => decide (fold platform k.label = key ∨ fold platform k.slug = key) ||
    k.aliases.any (fun alias_ => decide (fold platform alias_ = key)))

def addNew (values : List String) (value : String) : List String :=
  if value ∈ values then values else values ++ [value]

def normaliseOne (out : List String × List String) (raw : String) : List String × List String :=
  let trimmed := trim raw
  if trimmed = "" then out
  else match lookup platform trimmed with
    | some k => (addNew out.1 k.label, addNew out.2 (iri base k.slug))
    | none => (addNew out.1 trimmed, out.2)

/-- The labels of a caller's keywords, and the concepts of those on the list. -/
def normalise (given : List String) : List String × List String :=
  given.foldl (normaliseOne platform base) ([], [])

end

end ToolArtifactRegistry.Domain.Keywords
