import ToolArtifactRegistry.Api.Listing
import ToolArtifactRegistry.Domain.Vocabulary
import ToolArtifactRegistry.Library.Queries

/-! The listings page by page: what each one matches, the page that a cursor asks for, and the total reported
beside it. -/
namespace ToolArtifactRegistry.Api.Paging

open Library.Rdf Library.Queries Ids Domain Listing

def vocabulary : Prologue :=
  [("tar", Ns.tar), ("dcat", Ns.dcat), ("dct", Ns.dct), ("prov", Ns.prov), ("schema", Ns.schema), ("rdfs", Ns.rdfs),
    ("skos", Ns.skos), ("spdx", Ns.spdx), ("xsd", Ns.xsd)]

/-! Patterns. -/

def s : Place := .var "s"

def one (abbreviation word : String) : Path := .either [.name abbreviation word]

def typed (iri : String) : Path × Place := (.either [.a], .iri iri)

/-- One triple about the subject, in the graph the others stand in. -/
def clause (path : Path) (object : Place) : Element := .graph (.var "g") [.triples s [(path, object)]]

def optional (path : Path) (name : String) : Item := .optional ⟨s, path, .var name⟩

def untombstoned : Option Element := some (.absent (.var "tg") ⟨s, one "tar" "tombstoned", .yes⟩)

/-- A filter that is given no value adds no line. -/
def line (value : Option String) (element : String → Element) : Body :=
  match value.filter (fun v => v != "") with
  | some v => [some (element v)]
  | none => []

/-- A blank search leaves its line empty. -/
def textLine (q : Option String) (names : List String) : Body :=
  match q with
  | some q => [if Library.Text.trim q = "" then none else some (.found (escapeLiteral (regexEscape q)) names)]
  | none => []

def registryLine (registry : Option String) : Body :=
  match registry with
  | none => []
  | some peer =>
    if peer = "local" then [some (.equals "g" Ns.gLocal)]
    else if peer ≠ "" then [some (.equals "g" (Ns.peerGraph peer))]
    else []

def cursorLine (paging : Listing.Paging) : Option Element :=
  (paging.cursor.filter (fun c => c != "")).map (fun c => .before "s" (escapeLiteral c))

def literal (value : String) : Place := .literal (escapeLiteral value)

def atInstance : Path := .either [.name "prov" "wasAssociatedWith", .name "tar" "atInstance"]

def generatedBy : Path := one "prov" "wasGeneratedBy"

def r : Place := .var "r"

def i : Place := .var "i"

def softwareBlock : Element :=
  .graph (.var "g")
    [.triples s [typed Software.typeSoftware, (one "schema" "name", .var "name")],
      optional (.either [.name "dct" "abstract", .name "tar" "tagline"]) "tagline", optional (one "schema" "description") "desc"]

def softwareStem (f : SoftwareFilter) : Body :=
  [some softwareBlock, untombstoned] ++
    textLine f.q ["name", "tagline", "desc"] ++ line f.license (fun v => clause (one "dct" "license") (.iri v)) ++
    line f.publisher (fun v => clause (one "dct" "publisher") (.iri v)) ++
    line f.topic (fun v => clause (one "dct" "subject") (.iri v)) ++
    line f.produces (fun v => clause (.through [.name "tar" "hasCapability", .name "tar" "produces"]) (.iri v)) ++
    line f.consumes (fun v => clause (.through [.name "tar" "hasCapability", .name "tar" "consumes"]) (.iri v)) ++
    line f.keyword (fun k => clause (one "schema" "keywords") (literal k)) ++
    line f.kind (fun k => clause (.either [.name "schema" "applicationCategory", .name "tar" "kind"]) (literal k)) ++
    registryLine f.registry

def instanceBlock : Element :=
  .graph (.var "g") [.triples s [typed Instance.typeSoftwareAgent, (one "rdfs" "label", .var "label")]]

def instanceStem (base : String) (f : InstanceFilter) : Body :=
  [some instanceBlock, untombstoned] ++
    textLine f.q ["label"] ++ line f.software (fun sw => clause (one "tar" "instanceOf") (.iri (iriFor base .software sw))) ++
    line f.release (fun r => clause (one "tar" "runsRelease") (.iri (iriFor base .release r))) ++
    line f.operator (fun o => clause (one "dct" "publisher") (.iri o)) ++
    line f.status (fun s => clause (one "tar" "health") (literal s)) ++ registryLine f.registry

def keywordElement (platform : Platform) (base k : String) : Element :=
  match (Keywords.lookup platform (lastSegment k)).or (Keywords.lookup platform k) with
  | some entry => clause (one "dcat" "theme") (.iri (Keywords.iri base entry.slug))
  | none => clause (one "dcat" "keyword") (literal k)

def contentElement (platform : Platform) (c : String) : Element :=
  match Content.parseQuery platform c with
  | some iri => clause (.through [.name "dcat" "distribution", .name "prov" "specializationOf"]) (.iri iri)
  | none => .never

def artifactBlock : Element :=
  .graph (.var "g")
    [.triples s [typed Artifact.typeDataset], optional (one "dct" "title") "title", optional (one "dct" "description") "desc"]

def artifactStem (platform : Platform) (base : String) (f : ArtifactFilter) : Body :=
  [some artifactBlock, untombstoned] ++
    textLine f.q ["title", "desc"] ++ line f.conformsTo (fun t => clause (one "dct" "conformsTo") (.iri t)) ++
    line f.license (fun l => clause (one "dct" "license") (.iri l)) ++
    line f.availability (fun a => clause (.through [.name "dcat" "distribution", .name "tar" "availability"]) (literal a)) ++
    line f.keyword (keywordElement platform base) ++
    line f.instance_ (fun id => .graph (.var "g")
      [.triples s [(generatedBy, r)], .triples r [(atInstance, .iri (iriFor base .instance_ id))]]) ++
    line f.software (fun sw => .graph (.var "g")
      [.triples s [(generatedBy, r)], .triples r [(atInstance, i)],
        .triples i [(one "tar" "instanceOf", .iri (iriFor base .software sw))]]) ++
    line f.run (fun run => clause generatedBy (.iri (iriFor base .run run))) ++
    line f.content (contentElement platform) ++ registryLine f.registry

def runBlock : Element :=
  .graph (.var "g")
    [.triples s [typed Run.typeActivity], optional (one "rdfs" "label") "label",
      optional (.either [.name "dct" "identifier", .name "tar" "externalKey"]) "key"]

def runStem (base : String) (f : RunFilter) : Body :=
  [some runBlock] ++
    textLine f.q ["label", "key"] ++ line f.instance_ (fun id => clause atInstance (.iri (iriFor base .instance_ id))) ++
    line f.software (fun sw => .graph (.var "g")
      [.triples s [(atInstance, i)], .triples i [(one "tar" "instanceOf", .iri (iriFor base .software sw))]]) ++
    line f.status (fun status => clause (one "tar" "status") (literal status))

def instanceRunsStem (base id : String) : Body :=
  [some (.graph (.var "g") [.triples s [typed Run.typeActivity, (atInstance, .iri (iriFor base .instance_ id))]])]

def instanceArtifactsStem (base id : String) : Body :=
  [some (.graph (.var "g")
    [.triples (.var "run") [(atInstance, .iri (iriFor base .instance_ id))], .triples s [(generatedBy, .var "run")]])]

/-! The listings. -/

/-- A listing that is cut by a cursor, with its filter; the paging of the filter stands apart. -/
inductive Endpoint where
  | software (filter : SoftwareFilter)
  | instances (filter : InstanceFilter)
  | artifacts (filter : ArtifactFilter)
  | runs (filter : RunFilter)
  | instanceRuns (id : String)
  | instanceArtifacts (id : String)

/-- What a listing matches, wherever the page begins. -/
def Endpoint.stem (platform : Platform) (base : String) (endpoint : Endpoint) : Body :=
  match endpoint with
  | .software f => softwareStem f
  | .instances f => instanceStem base f
  | .artifacts f => artifactStem platform base f
  | .runs f => runStem base f
  | .instanceRuns id => instanceRunsStem base id
  | .instanceArtifacts id => instanceArtifactsStem base id

def Endpoint.body (platform : Platform) (base : String) (endpoint : Endpoint) (paging : Listing.Paging) : Body :=
  endpoint.stem platform base ++ [cursorLine paging]

structure Page where
  iris : List String
  total : Nat
  next : Option String
  deriving DecidableEq, Repr

section Pages

variable (regex : String → String → Bool) (data : Dataset)

def count (body : Body) : Nat := body.count regex vocabulary data "s"

/-- One row more than the limit is asked for, to learn whether there is another page. -/
def pageIris (body : Body) (paging : Listing.Paging) : List String × Option String :=
  let limit := paging.limitOf
  let iris := (body.top regex vocabulary data "s" (limit + 1)).filterMap iriOf
  (iris.take limit, if limit < iris.length then (iris.take limit).getLast? else none)

variable (platform : Platform) (base : String)

def list (endpoint : Endpoint) (paging : Listing.Paging) : Page :=
  let body := endpoint.body platform base paging
  let page := pageIris regex data body paging
  ⟨page.1, count regex data body, page.2⟩

/-- The types a registry knows as types: what is declared, produced or consumed, and what it typed itself. -/
def typesOf (quad : Quad) : List Term :=
  (if quad.predicate ∈ [Ns.t Ns.dct "conformsTo", Ns.t Ns.tar "produces", Ns.t Ns.tar "consumes"] then [quad.object] else []) ++
    (if quad.predicate = Ns.rdfType ∧ quad.object = .named Vocabulary.classArtifactType ∧
        ((orderText quad.subject.term).any (fun text => Library.Text.startsWith text (base ++ "/type/")) ∨ quad.graph = Ns.gLocal)
      then [quad.subject.term] else [])

def typeIris : List String :=
  (((data.quads.flatMap (typesOf base)).dedup.mergeSort (fun one other => notBelow other one)).filterMap iriOf)

/-- The listing of the types takes a limit, but no cursor. -/
def listTypes (paging : Listing.Paging) : Page :=
  let iris := typeIris data base
  ⟨iris.take paging.limitOf, iris.length, none⟩

end Pages

/-! The queries as they are written. -/

def instanceRunsWhere (base id : String) (paging : Listing.Paging) : String :=
  graph ("?s a " ++ Listing.angle Run.typeActivity ++ " ; prov:wasAssociatedWith|tar:atInstance " ++
    Listing.angle (iriFor base .instance_ id)) ++ "\n" ++ paging.cursorFilter

def instanceArtifactsWhere (base id : String) (paging : Listing.Paging) : String :=
  graph ("?run prov:wasAssociatedWith|tar:atInstance " ++ Listing.angle (iriFor base .instance_ id) ++
    " . ?s prov:wasGeneratedBy ?run") ++ "\n" ++ paging.cursorFilter

def Endpoint.written (platform : Platform) (base : String) (endpoint : Endpoint) (paging : Listing.Paging) : String :=
  match endpoint with
  | .software f => softwareWhere { f with paging := paging }
  | .instances f => instanceWhere base { f with paging := paging }
  | .artifacts f => artifactWhere platform base { f with paging := paging }
  | .runs f => runWhere base { f with paging := paging }
  | .instanceRuns id => instanceRunsWhere base id paging
  | .instanceArtifacts id => instanceArtifactsWhere base id paging

end ToolArtifactRegistry.Api.Paging
