import ToolArtifactRegistry.Api.Paging
import ToolArtifactRegistry.Library.Grouping

/-! The facets beside the listing of software: how many there are with each licence, kind and topic, and the
listing a facet value is a filter of. -/
namespace ToolArtifactRegistry.Api.Facets

open Library.Rdf Library.Queries Ids Domain Listing Paging

inductive Facet where
  | license
  | kind
  | topic
  deriving DecidableEq

def Facet.verbs (facet : Facet) : List Verb :=
  match facet with
  | .license => [.name "dct" "license"]
  | .kind => [.name "schema" "applicationCategory", .name "tar" "kind"]
  | .topic => [.name "dct" "subject"]

def Facet.body (facet : Facet) : Body :=
  [some (.graph (.var "g") [.triples s [typed Software.typeSoftware, (.either facet.verbs, .var "v")]])]

def Facet.predicate (facet : Facet) : String :=
  match facet with
  | .license => "dct:license"
  | .kind => "schema:applicationCategory|tar:kind"
  | .topic => "dct:subject"

def Facet.pattern (facet : Facet) : String :=
  graph ("?s a " ++ Listing.angle Software.typeSoftware ++ " ; " ++ facet.predicate ++ " ?v")

def Facet.query (facet : Facet) : String :=
  prefixes ++ "\nSELECT ?v (COUNT(DISTINCT ?s) AS ?n) WHERE " ++ Listing.braces facet.pattern ++
    " GROUP BY ?v ORDER BY DESC(?n) LIMIT 25"

theorem Facet.body_written (facet : Facet) : facet.body.written = facet.pattern := by
  cases facet <;> decide

/-- The text a row holds for a term. -/
def rowText (term : Term) : String :=
  match term with
  | .literal value _ _ => value
  | .named iri => iri
  | .blank label => "_:" ++ label

structure FacetValue where
  value : String
  count : Nat
  deriving DecidableEq

section Reading

variable (regex : String → String → Bool) (data : Dataset)

/-- The groups in an order the store may return them in: the greatest first, and equals as it likes. -/
structure Ordered (facet : Facet) (rows : List (Term × Nat)) : Prop where
  all : rows.Perm (facet.body.groups regex vocabulary data "s" "v")
  greatest : rows.Pairwise (fun one other => other.2 ≤ one.2)

def reported (rows : List (Term × Nat)) : List (Term × Nat) := rows.take 25

def facetValues (rows : List (Term × Nat)) : List FacetValue := (reported rows).map (fun row => ⟨rowText row.1, row.2⟩)

end Reading

/-- A facet value set as the only filter. -/
def Facet.filter (facet : Facet) (value : String) : SoftwareFilter :=
  match facet with
  | .license => { license := some value }
  | .kind => { kind := some value }
  | .topic => { topic := some value }

/-- Whether the value makes a query: a licence or topic is pasted as an IRI, an empty one left out. -/
def Facet.spells (facet : Facet) (platform : Platform) (value : String) : Bool :=
  match facet with
  | .kind => true
  | .license | .topic => value == "" || platform.validIri value

/-- The total of that listing. What the store makes of a text that is no IRI lies outside. -/
def Facet.total (facet : Facet) (platform : Platform) (regex : String → String → Bool) (data : Dataset) (base : String)
    (pasted : String → Option Nat) (value : String) : Option Nat :=
  if facet.spells platform value then some (list regex data platform base (.software (facet.filter value)) {}).total
  else pasted value

end ToolArtifactRegistry.Api.Facets
