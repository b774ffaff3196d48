import ToolArtifactRegistry.Api.Guarding
import ToolArtifactRegistry.Domain.Forge
import ToolArtifactRegistry.Domain.Instance
import ToolArtifactRegistry.Ops

/-! What the registry fetches on its own account: the deployments it probes, and the API documents it
serves to the browser. -/
namespace ToolArtifactRegistry

open Library.Addresses Library.Rdf Library.Text Api.Guarding Domain Rdf

/-! The shared client. -/
namespace Client

structure HttpUrl extends Api.Guarding.Url where
  scheme : String

/-- What the code relies on outside: how a text is read as a URL, and how an address is written in one. -/
structure Web where
  parse : String → Except String HttpUrl
  display : IpAddr → String

def Web.hostStr (web : Web) (url : HttpUrl) : Option String :=
  url.host.map (fun host =>
    match host with
    | .domain name _ => name
    | .address (.v4 bits) => web.display (.v4 bits)
    | .address (.v6 bits) => "[" ++ web.display (.v6 bits) ++ "]")

/-- A client asks a host, over one of two schemes. -/
def HttpUrl.isHttp (url : HttpUrl) : Bool := url.host.isSome && decide (url.scheme = "http" ∨ url.scheme = "https")

/-- How many redirects the shared client follows. -/
def maxRedirects : Nat := 10

/-- The requests that follow a first one, when the servers send the client on to these URLs in turn. -/
def follow (redirects : List HttpUrl) : List HttpUrl := (redirects.take maxRedirects).takeWhile HttpUrl.isHttp

/-- The requests made for a URL. -/
def requests (web : Web) (redirects : List HttpUrl) (text : String) : List HttpUrl :=
  match web.parse text with
  | .error _ => []
  | .ok url => if url.isHttp then url :: follow redirects else []

end Client

/-! Probes. -/
namespace Health

open Client

structure Settings where
  allowPrivate : Bool := true
  batch : Nat := 20

def isPrivateIp : IpAddr → Bool
  | .v4 bits => isLoopback4 bits || isPrivate bits || isLinkLocal bits || isUnspecified4 bits
  | .v6 bits => isLoopback6 bits || isUnspecified6 bits

/-- A host without the brackets a version 6 address is written in. -/
def unbracketed (host : String) : String := trimEndMatches (trimStartMatches host (fun c => c == '[')) (fun c => c == ']')

def isPrivateHost (host : String) : Bool :=
  if eqIgnoreAsciiCase host "localhost" || Forge.endsWith host ".localhost" || Forge.endsWith host ".internal" then true
  else (parseIp (unbracketed host)).any isPrivateIp

/-- What became of a request. -/
inductive Sent where
  | responded (status : Nat)
  | unconnected
  | late
  | failed

/-- The host that is not asked, because private targets are off. -/
def withheld (settings : Settings) (web : Web) (url : String) : Option String :=
  if settings.allowPrivate then none
  else ((web.parse url).toOption.bind web.hostStr).filter isPrivateHost

def probe (settings : Settings) (web : Web) (sent : Sent) (url : String) (target : ProbeTarget) : Verdict :=
  match withheld settings web url with
  | some host => ⟨"unknown", s!"{host} is not a public address and probing private targets is off"⟩
  | none =>
    match sent with
    | .responded status => verdictFor (some status) none target
    | .unconnected => verdictFor none (some "could not connect") target
    | .late => verdictFor none (some "did not answer in time") target
    | .failed => verdictFor none (some "request failed") target

/-- The requests a probe makes. -/
def probeRequests (settings : Settings) (web : Web) (redirects : List HttpUrl) (url : String) : List HttpUrl :=
  if (withheld settings web url).isSome then [] else requests web redirects url

/-! The targets of a pass. -/

/-- A solution of the query: a deployment, a URL of it, and which of the two it is. -/
structure Solution where
  i : Node
  url : Term
  which : ProbeTarget
  deriving DecidableEq

def isInstance (quad : Quad) : Bool :=
  decide (quad.predicate = Ns.rdfType ∧ quad.object = .named Domain.Instance.typeSoftwareAgent ∧ quad.graph = Ns.gLocal)

/-- What is local and not withdrawn. -/
def instances (data : Dataset) : List Node :=
  ((data.matching isInstance).map Quad.subject).filter (fun i => !isTombstoned data i)

def speaks (i : Node) (predicate : String) (quad : Quad) : Bool :=
  decide (quad.subject = i ∧ quad.predicate = predicate ∧ quad.graph = Ns.gLocal)

/-- The bindings of an optional pattern: one for each value, or a single one that is unbound. -/
def optionally (data : Dataset) (i : Node) (predicate : String) : List (Option Term) :=
  match (data.matching (speaks i predicate)).map Quad.object with
  | [] => [none]
  | values => values.map some

/-- The declared health endpoint before the endpoint itself; a row without either is filtered out. -/
def solution (i : Node) (probe endpoint : Option Term) : Option Solution :=
  (probe.or endpoint).map (fun url => ⟨i, url, if probe.isSome then .declared else .endpointRoot⟩)

def solutionsOf (data : Dataset) (i : Node) : List Solution :=
  (optionally data i (Ns.t Ns.tar "healthEndpoint")).flatMap (fun probe =>
    (optionally data i (Ns.t Ns.dcat "endpointURL")).filterMap (solution i probe))

/-- Every solution of the query, before the limit. -/
def solutions (data : Dataset) : List Solution := (instances data).flatMap (solutionsOf data)

structure Target where
  iri : String
  url : String
  which : ProbeTarget

/-- A row that does not hold two IRIs is passed over. -/
def targetOf (row : Solution) : Option Target :=
  match row.i, row.url with
  | .named iri, .named url => some ⟨iri, url, row.which⟩
  | _, _ => none

/-- What the store may answer under a limit: so many of the solutions, whichever it comes upon. -/
structure Limited {α : Type} (limit : Nat) (all answer : List α) : Prop where
  among : answer.Subperm all
  length : answer.length = min limit all.length

def probeTargets (answer : List Solution) : List Target := answer.filterMap targetOf

/-! The loop. -/

/-- A target that is probed, what became of the request, and the moment the verdict is recorded at. -/
structure Visit where
  target : Target
  sent : Sent
  now : String

def visit (server : Server) (settings : Settings) (web : Web) (state : State) (visit : Visit) : State :=
  (record server state visit.now visit.target.iri (probe settings web visit.sent visit.target.url visit.target.which)).state

/-- A pass: the targets are listed once, then probed and recorded one after the other. -/
def Pass (server : Server) (settings : Settings) (web : Web) (state : State) (visits : List Visit) (after : State) : Prop :=
  (∃ answer, Limited settings.batch (solutions state.data) answer ∧ visits.map Visit.target = probeTargets answer) ∧
    after = visits.foldl (visit server settings web) state

/-- Pass after pass, with nothing else going on. -/
inductive CheckLoop (server : Server) (settings : Settings) (web : Web) : State → List (List Visit) → State → Prop
  | start (state : State) : CheckLoop server settings web state [] state
  | pass {state middle after : State} {visits : List Visit} {rest : List (List Visit)} :
    Pass server settings web state visits middle → CheckLoop server settings web middle rest after →
      CheckLoop server settings web state (visits :: rest) after

end Health

/-! API documents. -/
namespace Api.Apidocs

open Client

/-- Above this a document is a link to follow. -/
def maxBytes : Nat := 4 * 1024 * 1024

/-- In seconds. -/
def cacheTtl : Nat := 15 * 60

structure DocQuery where
  n : Option Nat := none
  refresh : Bool := false

structure CachedDoc where
  body : String
  contentType : String
  fetched : Nat

/-- What a server answers, after the redirects: the body is read last, and may fail to come. -/
structure Reply where
  status : Nat
  reason : String
  contentLength : Option Nat
  contentType : Option String
  bytes : Except String (List UInt8)

section Fetching

variable (web : Web) (allowPrivate : Bool)

/-- The URL of the document a caller chose, unless the guard refuses it. -/
def allowed (software : Model.Software) (query : DocQuery) : AppResult String :=
  let n := query.n.getD 0
  match software.apiDocs[n]? with
  | none => .error (AppError.notFound s!"{software.name} declares no API description at index {n}")
  | some doc =>
    let url := trim doc.url
    match web.parse url with
    | .error e => .error (AppError.badRequest s!"{url} is not a URL: {e}")
    | .ok parsed =>
      if ¬(parsed.scheme = "http" ∨ parsed.scheme = "https") then
        .error (AppError.badRequest s!"an API description must be served over http or https; {url} is {parsed.scheme}")
      else if !allowPrivate && (web.hostStr parsed).any Health.isPrivateHost then
        .error (AppError.forbidden s!"{url} is on a private address and TAR_APIDOC_ALLOW_PRIVATE is off")
      else .ok url

/-- A cached document that is still fresh, unless the caller skips the cache. -/
def hit (cache : List (String × CachedDoc)) (now : Nat) (query : DocQuery) (url : String) : Option CachedDoc :=
  if query.refresh then none else (cache.lookup url).filter (fun doc => decide (now - doc.fetched < cacheTtl))

/-- What is made of an answer. -/
def document (lossy : List UInt8 → String) (now : Nat) (url : String) (reply : Reply) : AppResult CachedDoc := do
  if !decide (200 ≤ reply.status ∧ reply.status < 300) then
    .error (AppError.badGateway s!"{url} answered {reply.reason} — the record points at a document that is not there")
  if let some len := reply.contentLength then
    if maxBytes < len then
      .error (AppError.badGateway s!"{url} is {len} bytes, over the {maxBytes}-byte limit; follow the link instead")
  let bytes ← reply.bytes.mapError (fun e => AppError.badGateway s!"could not read {url}: {e}")
  if maxBytes < bytes.length then
    .error (AppError.badGateway s!"{url} is over the {maxBytes}-byte limit; follow the link instead")
  return ⟨lossy bytes, reply.contentType.getD "application/json", now⟩

/-- The document and whether the cache had it. -/
def fetch (lossy : List UInt8 → String) (cache : List (String × CachedDoc)) (now : Nat) (software : Model.Software)
    (query : DocQuery) (answer : Except String Reply) : AppResult (CachedDoc × Bool) := do
  let url ← allowed web allowPrivate software query
  match hit cache now query url with
  | some doc => return (doc, true)
  | none =>
    let reply ← answer.mapError (fun e => AppError.badGateway s!"could not fetch {url}: {e}")
    return (← document lossy now url reply, false)

/-- The requests a fetch makes. -/
def fetchRequests (cache : List (String × CachedDoc)) (now : Nat) (redirects : List HttpUrl) (software : Model.Software)
    (query : DocQuery) : List HttpUrl :=
  match allowed web allowPrivate software query with
  | .error _ => []
  | .ok url => if (hit cache now query url).isSome then [] else requests web redirects url

end Fetching

end Api.Apidocs

end ToolArtifactRegistry
