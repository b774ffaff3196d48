import ToolArtifactRegistry.Domain.Artifact
import ToolArtifactRegistry.Domain.Instance
import ToolArtifactRegistry.Domain.Vocabulary
import ToolArtifactRegistry.Domain.Run
import ToolArtifactRegistry.Domain.Software
import ToolArtifactRegistry.Library.Replace

/-! The SPARQL text the listings build out of their filters. -/
namespace ToolArtifactRegistry.Api.Listing

open Library.Text Library.Replace Ids Domain

/-! Fragments. -/

def braces (body : String) : String := "\x7b " ++ body ++ " \x7d"

def angle (iri : String) : String := "<" ++ iri ++ ">"

def inQuotes (spelled : String) : String := "\"" ++ spelled ++ "\""

/-- A pattern matched in any graph. -/
def graph (body : String) : String := "GRAPH ?g " ++ braces body

def upperHex (n : Nat) : Char := if n < 10 then Char.ofNat (48 + n) else Char.ofNat (55 + n)

/-- Four digits, in upper case. -/
def hex4 (n : Nat) : List Char := [upperHex (n / 4096 % 16), upperHex (n / 256 % 16), upperHex (n / 16 % 16), upperHex (n % 16)]

def escapeChar (c : Char) : List Char :=
  if c = '\\' then ['\\', '\\']
  else if c = '"' then ['\\', '"']
  else if c = '\n' then ['\\', 'n']
  else if c = '\r' then ['\\', 'r']
  else if c = '\t' then ['\\', 't']
  else if c.toNat < 0x20 ∨ c.toNat = 0x7f then '\\' :: 'u' :: hex4 c.toNat
  else [c]

/-- A text spelled for a double-quoted literal. -/
def escapeLiteral (text : String) : String := String.ofList (text.toList.flatMap escapeChar)

def regexEscape (text : String) : String :=
  String.ofList (text.toList.flatMap (fun c => if c ∈ "\\.+*?()|[]\x7b\x7d^$".toList then ['\\', c] else [c]))

/-- A filter that finds a text in any of some variables, whatever its case. -/
def textFilter (q : String) (vars : List String) : String :=
  if trim q = "" then ""
  else
    let needle := escapeLiteral (regexEscape q)
    "FILTER(" ++ join " || " (vars.map (fun v => "REGEX(STR(" ++ v ++ "), " ++ inQuotes needle ++ ", \"i\")")) ++ ")"

/-- What a filter adds when it is given a value. -/
def given (value : Option String) (clause : String → String) : String :=
  match value.filter (fun v => v != "") with
  | some v => clause v
  | none => ""

/-! Paging. -/

structure Paging where
  cursor : Option String := none
  limit : Option String := none

def Paging.limitOf (paging : Paging) : Nat := max 1 (min 200 ((paging.limit.bind parseU64).getD 25))

def Paging.cursorFilter (paging : Paging) : String :=
  given paging.cursor (fun c => "FILTER(STR(?s) < " ++ inQuotes (escapeLiteral c) ++ ")")

def prefixes : String :=
  "PREFIX tar: <https://w3id.org/tar/ns#>\n" ++
  "PREFIX dcat: <http://www.w3.org/ns/dcat#>\n" ++
  "PREFIX dct: <http://purl.org/dc/terms/>\n" ++
  "PREFIX prov: <http://www.w3.org/ns/prov#>\n" ++
  "PREFIX schema: <https://schema.org/>\n" ++
  "PREFIX rdfs: <http://www.w3.org/2000/01/rdf-schema#>\n" ++
  "PREFIX skos: <http://www.w3.org/2004/02/skos/core#>\n" ++
  "PREFIX spdx: <http://spdx.org/rdf/terms#>\n" ++
  "PREFIX xsd: <http://www.w3.org/2001/XMLSchema#>\n"

def countQuery (whereBody : String) : String := prefixes ++ "\nSELECT (COUNT(DISTINCT ?s) AS ?n) WHERE " ++ braces whereBody

def pageQuery (whereBody : String) (paging : Paging) : String :=
  prefixes ++ "\nSELECT DISTINCT ?s WHERE " ++ braces whereBody ++ " ORDER BY DESC(STR(?s)) LIMIT " ++ toString (paging.limitOf + 1)

/-! The filters. -/

structure SoftwareFilter where
  q : Option String := none
  license : Option String := none
  publisher : Option String := none
  topic : Option String := none
  keyword : Option String := none
  kind : Option String := none
  produces : Option String := none
  consumes : Option String := none
  registry : Option String := none
  paging : Paging := {}

structure InstanceFilter where
  q : Option String := none
  software : Option String := none
  operator : Option String := none
  status : Option String := none
  release : Option String := none
  registry : Option String := none
  paging : Paging := {}

structure ArtifactFilter where
  q : Option String := none
  conformsTo : Option String := none
  license : Option String := none
  availability : Option String := none
  keyword : Option String := none
  instance_ : Option String := none
  software : Option String := none
  run : Option String := none
  content : Option String := none
  registry : Option String := none
  paging : Paging := {}

structure RunFilter where
  instance_ : Option String := none
  software : Option String := none
  status : Option String := none
  q : Option String := none
  paging : Paging := {}

structure CapabilityQuery where
  produces : Option String := none
  consumes : Option String := none

def notTombstoned : String := "\nFILTER NOT EXISTS " ++ braces ("GRAPH ?tg " ++ braces "?s tar:tombstoned true")

def textClause (q : Option String) (vars : List String) : String :=
  match q with
  | some q => "\n" ++ textFilter q vars
  | none => ""

def registryClause (registry : Option String) : String :=
  match registry with
  | none => ""
  | some peer =>
    if peer = "local" then "\nFILTER(?g = " ++ angle Ns.gLocal ++ ")"
    else if peer ≠ "" then "\nFILTER(?g = " ++ angle (Ns.peerGraph peer) ++ ")"
    else ""

def softwareHead : String :=
  graph ("?s a " ++ angle Software.typeSoftware ++ " ; schema:name ?name . OPTIONAL " ++ braces "?s dct:abstract|tar:tagline ?tagline" ++
    " OPTIONAL " ++ braces "?s schema:description ?desc") ++ notTombstoned

/-- The filters on an IRI, each with a pattern in which braces are doubled. -/
def softwarePatterns (f : SoftwareFilter) : List (Option String × String) :=
  [(f.license, "GRAPH ?g \x7b\x7b ?s dct:license <\x7bv\x7d> \x7d\x7d"),
    (f.publisher, "GRAPH ?g \x7b\x7b ?s dct:publisher <\x7bv\x7d> \x7d\x7d"),
    (f.topic, "GRAPH ?g \x7b\x7b ?s dct:subject <\x7bv\x7d> \x7d\x7d"),
    (f.produces, "GRAPH ?g \x7b\x7b ?s tar:hasCapability/tar:produces <\x7bv\x7d> \x7d\x7d"),
    (f.consumes, "GRAPH ?g \x7b\x7b ?s tar:hasCapability/tar:consumes <\x7bv\x7d> \x7d\x7d")]

def fillPattern (pattern v : String) : String :=
  replaceText (replaceText (replaceText pattern "\x7b\x7b" "\x7b") "\x7d\x7d" "\x7d") "\x7bv\x7d" v

def softwareWhere (f : SoftwareFilter) : String :=
  softwareHead ++ textClause f.q ["?name", "?tagline", "?desc"] ++
    join "" ((softwarePatterns f).map (fun entry => given entry.1 (fun v => "\n" ++ fillPattern entry.2 v))) ++
    given f.keyword (fun k => "\n" ++ graph ("?s schema:keywords " ++ inQuotes (escapeLiteral k))) ++
    given f.kind (fun k => "\n" ++ graph ("?s schema:applicationCategory|tar:kind " ++ inQuotes (escapeLiteral k))) ++
    registryClause f.registry ++ "\n" ++ f.paging.cursorFilter

def instanceHead : String := graph ("?s a " ++ angle Instance.typeSoftwareAgent ++ " ; rdfs:label ?label") ++ notTombstoned

def instanceWhere (base : String) (f : InstanceFilter) : String :=
  instanceHead ++ textClause f.q ["?label"] ++
    given f.software (fun sw => "\n" ++ graph ("?s tar:instanceOf " ++ angle (iriFor base .software sw))) ++
    given f.release (fun r => "\n" ++ graph ("?s tar:runsRelease " ++ angle (iriFor base .release r))) ++
    given f.operator (fun o => "\n" ++ graph ("?s dct:publisher " ++ angle o)) ++
    given f.status (fun s => "\n" ++ graph ("?s tar:health " ++ inQuotes (escapeLiteral s))) ++
    registryClause f.registry ++ "\n" ++ f.paging.cursorFilter

def artifactHead : String :=
  graph ("?s a " ++ angle Artifact.typeDataset ++ " . OPTIONAL " ++ braces "?s dct:title ?title" ++ " OPTIONAL " ++
    braces "?s dct:description ?desc") ++ notTombstoned

/-- The last piece of a path. -/
def lastSegment (text : String) : String := ((split text (fun c => c == '/')).getLast?).getD text

/-- A keyword on the list is matched as a concept, any other as free text. -/
def keywordClause (platform : Platform) (base k : String) : String :=
  match (Keywords.lookup platform (lastSegment k)).or (Keywords.lookup platform k) with
  | some entry => "\n" ++ graph ("?s dcat:theme " ++ angle (Keywords.iri base entry.slug))
  | none => "\n" ++ graph ("?s dcat:keyword " ++ inQuotes (escapeLiteral k))

/-- A value that names no bytes matches nothing. -/
def contentClause (platform : Platform) (c : String) : String :=
  match Content.parseQuery platform c with
  | some iri => "\n" ++ graph ("?s dcat:distribution/prov:specializationOf " ++ angle iri)
  | none => "\nFILTER(false)"

def artifactWhere (platform : Platform) (base : String) (f : ArtifactFilter) : String :=
  artifactHead ++ textClause f.q ["?title", "?desc"] ++
    given f.conformsTo (fun t => "\n" ++ graph ("?s dct:conformsTo " ++ angle t)) ++
    given f.license (fun l => "\n" ++ graph ("?s dct:license " ++ angle l)) ++
    given f.availability (fun a => "\n" ++ graph ("?s dcat:distribution/tar:availability " ++ inQuotes (escapeLiteral a))) ++
    given f.keyword (keywordClause platform base) ++
    given f.instance_ (fun i => "\n" ++
      graph ("?s prov:wasGeneratedBy ?r . ?r prov:wasAssociatedWith|tar:atInstance " ++ angle (iriFor base .instance_ i))) ++
    given f.software (fun sw => "\n" ++
      graph ("?s prov:wasGeneratedBy ?r . ?r prov:wasAssociatedWith|tar:atInstance ?i . ?i tar:instanceOf " ++
        angle (iriFor base .software sw))) ++
    given f.run (fun r => "\n" ++ graph ("?s prov:wasGeneratedBy " ++ angle (iriFor base .run r))) ++
    given f.content (contentClause platform) ++
    registryClause f.registry ++ "\n" ++ f.paging.cursorFilter

def runHead : String :=
  graph ("?s a " ++ angle Run.typeActivity ++ " . OPTIONAL " ++ braces "?s rdfs:label ?label" ++ " OPTIONAL " ++
    braces "?s dct:identifier|tar:externalKey ?key")

def runWhere (base : String) (f : RunFilter) : String :=
  runHead ++ textClause f.q ["?label", "?key"] ++
    given f.instance_ (fun i => "\n" ++ graph ("?s prov:wasAssociatedWith|tar:atInstance " ++ angle (iriFor base .instance_ i))) ++
    given f.software (fun sw => "\n" ++
      graph ("?s prov:wasAssociatedWith|tar:atInstance ?i . ?i tar:instanceOf " ++ angle (iriFor base .software sw))) ++
    given f.status (fun s => "\n" ++ graph ("?s tar:status " ++ inQuotes (escapeLiteral s))) ++
    "\n" ++ f.paging.cursorFilter

def capabilityClauses (q : CapabilityQuery) : String :=
  given q.produces (fun t => "?cap tar:produces " ++ angle t ++ " . ") ++
    given q.consumes (fun t => "?cap tar:consumes " ++ angle t ++ " . ")

def capabilityQuery (q : CapabilityQuery) : AppResult String :=
  if capabilityClauses q = "" then
    .error (AppError.badRequest "give at least one of produces= or consumes= (an ArtifactType IRI)")
  else
    .ok (prefixes ++ "\nSELECT DISTINCT ?s ?cap WHERE " ++
      braces ("GRAPH ?g " ++ braces ("?s tar:hasCapability ?cap . " ++ capabilityClauses q)) ++ " LIMIT 200")

/-- A request to a listing. -/
inductive Request where
  | software (filter : SoftwareFilter)
  | instances (filter : InstanceFilter)
  | artifacts (filter : ArtifactFilter)
  | runs (filter : RunFilter)
  | capabilities (query : CapabilityQuery)

/-- The texts a listing sends to the store: for one page, and for the count. -/
def Request.queries (platform : Platform) (base : String) (request : Request) : AppResult (List String) :=
  match request with
  | .software f => .ok [pageQuery (softwareWhere f) f.paging, countQuery (softwareWhere f)]
  | .instances f => .ok [pageQuery (instanceWhere base f) f.paging, countQuery (instanceWhere base f)]
  | .artifacts f => .ok [pageQuery (artifactWhere platform base f) f.paging, countQuery (artifactWhere platform base f)]
  | .runs f => .ok [pageQuery (runWhere base f) f.paging, countQuery (runWhere base f)]
  | .capabilities q => (capabilityQuery q).map (fun text => [text])

end ToolArtifactRegistry.Api.Listing
