import ToolArtifactRegistry.Store

/-! A property map over a subject's quads, with typed getters. -/
namespace ToolArtifactRegistry.Rdf

open Library.Rdf Library.Text Store

/-- What a description says about one key, and the description it was read from. -/
structure Props where
  subject : String
  own : List Quad
  described : List Quad

namespace Props

def keyed (key : String) (quads : List Quad) : List Quad :=
  quads.filter (fun quad => decide (subjectKey quad.subject = key))

def fromQuads (subject : String) (quads : List Quad) : Props := ⟨subject, keyed subject quads, quads⟩

def graph (props : Props) : Option String := props.own.head?.map Quad.graph

/-- The property map of a node of the description, when it says anything about it. -/
def nestedFor (props : Props) (key : String) : Option Props :=
  match keyed key props.described with
  | [] => none
  | found => some ⟨key, found, []⟩

def termValue : Term → String
  | .literal value _ _ => value
  | .named iri => iri
  | .blank label => "_:" ++ label

/-- The key a node is found under; a literal is never the key of a subject. -/
def termKey : Term → Option String
  | .named iri => some iri
  | .blank label => some ("_:" ++ label)
  | .literal .. => none

def namedIri : Term → Option String
  | .named iri => some iri
  | _ => none

def ofPredicate (predicate : String) (quads : List Quad) : List Term :=
  (quads.filter (fun quad => decide (quad.predicate = predicate))).map Quad.object

def terms (props : Props) (ns localName : String) : List Term := ofPredicate (Ns.t ns localName) props.own

def one (props : Props) (ns localName : String) : Option Term := (props.terms ns localName).head?

/-- The lexical value of the first object. -/
def str (props : Props) (ns localName : String) : Option String := (props.one ns localName).map termValue

def strs (props : Props) (ns localName : String) : List String := (props.terms ns localName).map termValue

def iri (props : Props) (ns localName : String) : Option String := (props.one ns localName).bind namedIri

def iris (props : Props) (ns localName : String) : List String := (props.terms ns localName).filterMap namedIri

def nodeKeys (props : Props) (ns localName : String) : List (Option String) :=
  (props.terms ns localName).map termKey

def i64 (props : Props) (ns localName : String) : Option Int := (props.str ns localName).bind parseI64

def parseBool : String → Option Bool
  | "true" => some true
  | "1" => some true
  | "false" => some false
  | "0" => some false
  | _ => none

def bool (props : Props) (ns localName : String) : Option Bool := (props.str ns localName).bind parseBool

def types (props : Props) : List String := props.iris Ns.rdf "type"

def hasType (props : Props) (typeIri : String) : Bool := decide (typeIri ∈ props.types)

theorem hasType_iff {props : Props} {typeIri : String} :
    props.hasType typeIri = true ↔ ∃ quad ∈ props.own, quad.predicate = Ns.rdfType ∧ quad.object = .named typeIri := by
  unfold hasType
  rw [decide_eq_true_iff]
  simp only [types, iris, terms, ofPredicate, List.mem_filterMap, List.mem_map, List.mem_filter,
    decide_eq_true_eq]
  constructor
  · rintro ⟨object, ⟨quad, ⟨mem, named⟩, rfl⟩, isIri⟩
    refine ⟨quad, mem, named, ?_⟩
    cases shape : quad.object <;> simp_all [namedIri]
  · rintro ⟨quad, mem, named, same⟩
    exact ⟨quad.object, ⟨quad, ⟨mem, named⟩, rfl⟩, by simp [same, namedIri]⟩

end Props

/-- The property map of a subject as the store describes it. -/
def propsOf (data : Dataset) (subject : String) : Props := Props.fromQuads subject (describeQuads data subject)

end ToolArtifactRegistry.Rdf
