import ToolArtifactRegistry.Domain.Artifact
import ToolArtifactRegistry.Domain.Instance
import ToolArtifactRegistry.Domain.Software
import ToolArtifactRegistry.Library.Percent
import ToolArtifactRegistry.Negotiate

/-! Dereferencing an IRI of the registry: the routes, the two handlers behind them, and the links that go with
an answer. -/
namespace ToolArtifactRegistry.Deref

open Library.Rdf Library.Text Ids Model Store Rdf Domain Negotiate

/-! Extensions. -/

def extensions : List (String × Repr) :=
  [("ttl", .turtle), ("turtle", .turtle), ("jsonld", .jsonLd), ("nq", .nQuads), ("nquads", .nQuads), ("json", .json),
    ("html", .html), ("md", .markdown), ("markdown", .markdown)]

def fromExtension (ext : String) : Option Repr := extensions.lookup ext

/-- What stands before and after the last of the separators. -/
def rsplitOnce (text : String) (sep : Char) : Option (String × String) :=
  let reversed := text.toList.reverse
  match reversed.dropWhile (fun c => c != sep) with
  | [] => none
  | _ :: stem => some (String.ofList stem.reverse, String.ofList (reversed.takeWhile (fun c => c != sep)).reverse)

/-- An extension that stands for a representation pins it, whatever the header says. -/
def splitExtension (id : String) : String × Option Repr :=
  match rsplitOnce id '.' with
  | none => (id, none)
  | some (stem, ext) =>
    match fromExtension ext with
    | some repr => (stem, some repr)
    | none => (id, none)

/-! Signposting. -/

structure Link where
  target : String
  rel : String
  type : Option String := none
  deriving DecidableEq

def Link.text (link : Link) : String :=
  match link.type with
  | some type => "<" ++ link.target ++ ">; rel=\"" ++ link.rel ++ "\"; type=\"" ++ type ++ "\""
  | none => "<" ++ link.target ++ ">; rel=\"" ++ link.rel ++ "\""

/-- The links every record has. -/
def signposting (iri : String) : List Link :=
  [⟨iri, "cite-as", none⟩, ⟨iri ++ ".ttl", "describedby", some "text/turtle"⟩,
    ⟨iri ++ ".jsonld", "describedby", some "application/ld+json"⟩, ⟨iri ++ ".md", "alternate", some "text/markdown"⟩]

def optLink (rel : String) (target : Option String) : List Link := (target.map (fun target => ⟨target, rel, none⟩)).toList

/-- Bytes that exist; metadata alone is no item. -/
def itemOf (distribution : Distribution) : Option Link :=
  if distribution.availability = "metadata-only" then none
  else (distribution.downloadUrl.or distribution.accessUrl).map (fun url => ⟨url, "item", distribution.mediaType⟩)

/-- A header holds visible characters only; with any other there is none. -/
def headerValue (links : List Link) : Option String :=
  let text := join ", " (links.map Link.text)
  if text.toList.all (fun c => decide (c = '\t' ∨ (32 ≤ c.toNat ∧ c.toNat < 127))) then some text else none

/-! Bodies. -/

structure ArtifactRef where
  iri : String
  title : Option String
  conformsTo : Option TypeRef
  availability : Option String
  origin : Origin
  unresolved : Bool

/-- A run with what it used and generated, and what else its events carried. -/
structure Run where
  summary : RunSummary
  used : List ArtifactRef
  generated : List ArtifactRef
  openlineagePayload : Option String

/-- A record as it is loaded. -/
inductive Record where
  | software (value : Model.Software)
  | instance_ (value : Model.Instance)
  | artifact (value : Model.Artifact)
  | run (value : Run)
  | release (value : Model.Release)

/-- What a page of prose is written from; `fenced` is the graph itself, in Turtle, between fences. -/
inductive Prose where
  | software (value : Model.Software) (releases : List Model.Release) (deployments : List Model.Instance)
  | record (value : Record)
  | fenced (quads : List Quad)

inductive Body where
  | page
  | graph (format : Repr) (quads : List Quad)
  | json (value : Record)
  | markdown (value : Prose)

/-- What a body is written in. -/
def Body.repr : Body → Repr
  | .page => .html
  | .graph format _ => format
  | .json _ => .json
  | .markdown _ => .markdown

/-- There are three formats for a graph, and Turtle stands in for the rest. -/
def serialize (quads : List Quad) : Repr → Body
  | .jsonLd => .graph .jsonLd quads
  | .nQuads => .graph .nQuads quads
  | _ => .graph .turtle quads

/-- An answer, the IRI its handler looked up, and the links of its header. -/
structure Response where
  iri : String
  contentType : String
  body : Body
  links : List Link

def linked (links : List Link) : List Link := if (headerValue links).isSome then links else []

def intoResponse (iri : String) (repr : Repr) (body : Body) (links : List Link) : Response :=
  ⟨iri, repr.mediaType, body, linked links⟩

/-- The single-page app. -/
def spaResponse (iri : String) (links : List Link) : Response := ⟨iri, "text/html; charset=utf-8", .page, links⟩

section Loading

variable (ctx : Ctx) (hashing : Ctx.Hashing)

def artifactRef (iri : String) : ArtifactRef :=
  match describe ctx.platform ctx.data iri with
  | .ok (quad :: rest) =>
    let p := Props.fromQuads iri (quad :: rest)
    { iri, title := (p.str Ns.dct "title").or (p.str Ns.skos "prefLabel")
      conformsTo := (p.iri Ns.dct "conformsTo").map ctx.typeRef
      availability := some (Artifact.overallAvailability
        ((p.nodeKeys Ns.dcat "distribution").filterMap (Artifact.distributionFrom p)))
      origin := ctx.origin p.graph, unresolved := false }
  | _ => { iri, title := none, conformsTo := none, availability := none, origin := ctx.originOfIri hashing iri, unresolved := true }

def loadRun (iri : String) : AppResult Run := do
  let quads ← describe ctx.platform ctx.data iri
  if quads.isEmpty then .error (AppError.notFound s!"no run at {iri}")
  let p := Props.fromQuads iri quads
  let used := (p.iris Ns.prov "used").map (artifactRef ctx hashing)
  let generated := (Run.generatedIris ctx.data iri).map (artifactRef ctx hashing)
  return { summary := Run.decorate ctx { Run.runSummaryFromProps ctx iri p with
             usedCount := used.length }
           used, generated, openlineagePayload := p.str Ns.tar "openLineagePayload" }

/-- The live deployments of a software in some graph, the latest IRIs first. -/
def deploymentsOf (data : Dataset) (softwareIri : String) : List Node :=
  let typed := data.matching (fun quad =>
    decide (quad.predicate = Ns.rdfType ∧ quad.object = .named Instance.typeTarInstance))
  let here := typed.filter (fun quad => data.any (fun other => decide (other.subject = quad.subject ∧
    other.predicate = Ns.t Ns.tar "instanceOf" ∧ other.object = .named softwareIri ∧ other.graph = quad.graph)))
  ((((here.map Quad.subject).eraseDups.filter (fun node => !isTombstoned data node)).insertionSort
    (fun left right => le (subjectKey right) (subjectKey left) = true)).take 200)

def instancesOf (softwareIri : String) : List Model.Instance :=
  ((deploymentsOf ctx.data softwareIri).filterMap Node.iri?).filterMap (fun iri => (Instance.loadInstance ctx iri).toOption)

/-- A record of one of the kinds that have a model. -/
def loadRecord (kind : Kind) (iri : String) (quads : List Quad) : Option (AppResult Record) :=
  match kind with
  | .software => some ((Software.loadSoftware ctx iri).map Record.software)
  | .instance_ => some ((Instance.loadInstance ctx iri).map Record.instance_)
  | .artifact => some ((Artifact.loadArtifact ctx iri).map Record.artifact)
  | .run => some ((loadRun ctx hashing iri).map Record.run)
  | .release => some (.ok (.release (Software.releaseFromProps ctx iri (Props.fromQuads iri quads))))
  | _ => none

/-- The prose of a record; the graph itself where there is no model. -/
def renderRecord (kind : Kind) (iri : String) (quads : List Quad) : AppResult Prose :=
  match loadRecord ctx hashing kind iri quads with
  | none => .ok (.fenced quads)
  | some loaded => loaded.map (fun record =>
    match record with
    | .software value => .software value (Software.listReleases ctx iri) (instancesOf ctx iri)
    | other => .record other)

/-- The links of a record, with those its kind has beside them. -/
def signpostingFor (kind : Kind) (iri : String) : List Link :=
  signposting iri ++ [⟨ctx.base ++ "/api/v1/registry", "collection", none⟩] ++
    match kind with
    | .artifact =>
      match Artifact.loadArtifact ctx iri with
      | .error _ => []
      | .ok a => optLink "type" (a.conformsTo.map TypeRef.iri) ++ optLink "license" a.license ++
          optLink "author" (a.publisher.map AgentRef.iri) ++ a.distributions.filterMap itemOf
    | .software =>
      match Software.loadSoftware ctx iri with
      | .error _ => []
      | .ok s => optLink "license" s.license ++ optLink "author" (s.publisher.map AgentRef.iri) ++ optLink "item" s.codeRepository
    | _ => []

/-- The body of a record that is there. -/
def bodyOf (kind : Kind) (iri : String) (quads : List Quad) : Repr → AppResult Body
  | .markdown => (renderRecord ctx hashing kind iri quads).map Body.markdown
  | .json =>
    match loadRecord ctx hashing kind iri quads with
    | some loaded => loaded.map Body.json
    -- the kinds without a model are written as Turtle
    | none => .ok (serialize quads .turtle)
  | repr => .ok (serialize quads repr)

/-- The answer about one IRI in one representation. -/
def represent (kind : Kind) (iri : String) (repr : Repr) : AppResult Response :=
  match describe ctx.platform ctx.data iri with
  | .error e => .error e
  | .ok quads =>
    if quads.isEmpty && decide (repr ≠ .html) then .error (AppError.notFound s!"nothing at {iri}")
    else
      let links := signpostingFor ctx kind iri
      if repr = .html then .ok (spaResponse iri (if quads.isEmpty then [] else linked links))
      else (bodyOf ctx hashing kind iri quads repr).map (fun body => intoResponse iri repr body links)

def deref (headers : Mcp.Headers) (kind : Kind) (id : String) : AppResult Response :=
  let (id, pinned) := splitExtension id
  represent ctx hashing kind (iriFor ctx.base kind id) (pinned.getD (negotiate headers .html))

/-- The body of a record without a page. -/
def plainBody (quads : List Quad) : Repr → Body
  | .markdown => .markdown (.fenced quads)
  | .json => serialize quads .turtle
  | repr => serialize quads repr

/-- The kinds without a page: the path is looked up as it is. -/
def derefGeneric (headers : Mcp.Headers) (path : String) : AppResult Response :=
  let iri := ctx.base ++ path
  let repr := negotiate headers .turtle
  if repr = .html then .ok (spaResponse iri [])
  else
    match describe ctx.platform ctx.data iri with
    | .error e => .error e
    | .ok quads =>
      if quads.isEmpty then .error (AppError.notFound s!"nothing at {iri}")
      else .ok (intoResponse iri repr (plainBody quads repr) (signposting iri))

end Loading

/-! The routes. -/

/-- What stands first in the path of an IRI, and the kind its handler takes it for; the generic handler takes any. -/
def routes : List (String × Option Kind) :=
  [("software", some .software), ("release", some .release), ("instance", some .instance_), ("instances", some .instance_),
    ("artifact", some .artifact), ("artifacts", some .artifact), ("artifact-series", some .artifactSeries), ("run", some .run),
    ("runs", some .run), ("type", some .type), ("capability", none), ("keyword", none), ("scheme", none), ("distribution", none),
    ("agent", none)]

section Serving

variable (ctx : Ctx) (hashing : Ctx.Hashing) (headers : Mcp.Headers)

def handle (path id : String) : Option Kind → AppResult Response
  | none => derefGeneric ctx headers path
  | some kind =>
    match Library.Percent.decode id with
    | none => .error ((AppError.new 400 "" "").withDetail "Invalid URL: Invalid UTF-8 in `id`")
    | some id => deref ctx hashing headers kind id

/-- The answer to a request for a path of these routes. -/
def respond (path : String) : Option (AppResult Response) :=
  match split path (fun c => c == '/') with
  | [_, segment, id] => if id = "" then none else (routes.lookup segment).map (handle ctx hashing headers path id)
  | _ => none

/-- The answer to a request for a URL of the registry. -/
def dereference (url : String) : Option (AppResult Response) :=
  (stripPrefix url (trimSlash ctx.base)).bind (respond ctx hashing headers)

end Serving

end ToolArtifactRegistry.Deref
