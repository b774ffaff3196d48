import ToolArtifactRegistry.Model
import ToolArtifactRegistry.Rdf.Build
import ToolArtifactRegistry.Rdf.Props

/-! What a request reads through: the store, the reference data, the peer table; and the agents
and labels every record is decorated with. -/
namespace ToolArtifactRegistry.Domain

open Library.Rdf Library.Text Ids Model Store Rdf

structure PeerRecord where
  id : String
  baseIri : String
  title : Option String
  lastSeenAt : Option String
  resolveStatus : String
  recordCount : Nat
  stale : Bool

/-- The comparisons of `xsd:dateTime` values the engine makes. -/
structure Calendar where
  atOrAfter : Term → String → Bool
  latest : List Term → Option String
  /-- Seconds between two RFC 3339 texts. -/
  duration : String → String → Option Int

structure Ctx where
  platform : Platform
  config : Config
  calendar : Calendar
  data : Dataset
  /-- The bundled vocabularies, held in memory beside the record store. -/
  reference : Dataset
  peers : List PeerRecord
  /-- Thirty days before the clock. -/
  since : String

namespace Ctx

def base (ctx : Ctx) : String := ctx.config.baseIri

def localOrigin : Origin := { kind := "local" }

def peerOrigin (peer : PeerRecord) : Origin :=
  { kind := "peer", peerId := some peer.id, peerTitle := peer.title, peerBaseIri := some peer.baseIri,
    cachedAt := peer.lastSeenAt, resolveStatus := some peer.resolveStatus, stale := peer.stale }

def origin (ctx : Ctx) (graph : Option String) : Origin :=
  match graph with
  | none => localOrigin
  | some graph =>
    if graph = Ns.gLocal then localOrigin
    else match stripPrefix graph Ns.gPeerPrefix with
      | none => localOrigin
      | some id =>
        match ctx.peers.reverse.find? (fun peer => decide (Ns.peerGraph peer.id = graph)) with
        | some peer => peerOrigin peer
        | none => { kind := "peer", peerId := some id }

/-- The order in which the map of the peers gives its values: any, and another one for each map. -/
structure Hashing where
  values : List PeerRecord → List PeerRecord
  perm : ∀ peers, (values peers).Perm peers

/-- The origin told from the IRI alone, for links that have not been resolved. -/
def originOfIri (ctx : Ctx) (hashing : Hashing) (iri : String) : Origin :=
  if isLocal ctx.base iri then localOrigin
  else match (hashing.values ctx.peers).find? (fun peer => startsWith iri peer.baseIri) with
    | some peer => peerOrigin peer
    | none => { kind := "peer" }

/-- The objects of one predicate about a subject, in any graph. -/
def objects (data : Dataset) (subject predicate : String) : List Term :=
  (data.matching (fun quad => decide (quad.subject = .named subject ∧ quad.predicate = predicate))).map Quad.object

def objectsIn (data : Dataset) (graph subject predicate : String) : List Term :=
  (data.matching (fun quad =>
    decide (quad.subject = .named subject ∧ quad.predicate = predicate ∧ quad.graph = graph))).map Quad.object

/-- The graphs that say anything about a subject, in the store's order. -/
def graphsOf (data : Dataset) (subject : String) : List String :=
  ((data.matching (about (.named subject))).map Quad.graph).eraseDups

/-- The first label a graph gives: the preferred one, else the plain one. -/
def typeLabel (data : Dataset) (iri : String) : Option String :=
  (graphsOf data iri).findSome? (fun graph =>
    match objectsIn data graph iri (Ns.t Ns.skos "prefLabel") with
    | label :: _ => some (Props.termValue label)
    | [] => (objectsIn data graph iri (Ns.t Ns.rdfs "label")).head?.map Props.termValue)

def typeDefinition (data : Dataset) (iri : String) : Option String :=
  (objects data iri (Ns.t Ns.skos "definition")).head?.map Props.termValue

def typeSource (base iri : String) : String :=
  if startsWith iri "http://edamontology.org/" || startsWith iri "http://data.europa.eu/8mn/euroscivoc/" then
    "bundled"
  else if isLocal base iri then "local"
  else "external"

/-- The record store first, then the bundles; the last path segment when neither has a label. -/
def typeRef (ctx : Ctx) (iri : String) : TypeRef :=
  let known := startsWith iri "http"
  let label := if known then (typeLabel ctx.data iri).or (typeLabel ctx.reference iri) else none
  let definition := if known then (typeDefinition ctx.data iri).or (typeDefinition ctx.reference iri) else none
  { iri, label := some (label.getD (iriTail iri)), definition, source := typeSource ctx.base iri }

def typeRefs (ctx : Ctx) (iris : List String) : List TypeRef := iris.map ctx.typeRef

def agentKind (props : Props) : Option String :=
  if props.hasType (Ns.t Ns.schema "Person") then some "person"
  else if props.hasType (Ns.t Ns.schema "Organization") then some "organization"
  else if props.hasType (Ns.t Ns.prov "SoftwareAgent") then some "software"
  else none

/-- An IRI the store cannot parse describes as nothing. -/
def agentProps (ctx : Ctx) (iri : String) : Props :=
  if ctx.platform.validIri iri then propsOf ctx.data iri else Props.fromQuads "" []

def agentRef (ctx : Ctx) (iri : String) : AgentRef :=
  let props := ctx.agentProps iri
  { iri
    name := (props.str Ns.schema "name").or (props.str Ns.rdfs "label")
    kind := agentKind props
    identifier := (props.iri Ns.schema "identifier").or (props.str Ns.schema "identifier")
    email := props.str Ns.schema "email"
    homepage := props.iri Ns.schema "url"
    version := props.str Ns.schema "softwareVersion" }

def optAgentRef (ctx : Ctx) (iri : Option String) : Option AgentRef := iri.map ctx.agentRef

/-- A label for a subject: a name, a title, a label or a version. -/
def labelOf (ctx : Ctx) (iri : String) : Option String :=
  if startsWith iri "http" then
    ([Ns.t Ns.schema "name", Ns.t Ns.dct "title", Ns.t Ns.rdfs "label", Ns.t Ns.schema "softwareVersion"].findSome?
      (fun predicate => (objects ctx.data iri predicate).head?)).map Props.termValue
  else none

end Ctx

def tombstonedTrue : Term := .literal "true" (Ns.xsd ++ "boolean") none

/-- The filter every listing and lookup of live records carries. -/
def isTombstoned (data : Dataset) (node : Node) : Bool :=
  data.any (fun quad => decide (quad.subject = node ∧ quad.predicate = Ns.t Ns.tar "tombstoned" ∧
    quad.object = tombstonedTrue))

/-- The EU access-right concept of an availability; coarser than the availability itself. -/
def accessRight : String → Option String
  | "public" => some (Ns.euAccessRight ++ "PUBLIC")
  | "restricted" => some (Ns.euAccessRight ++ "RESTRICTED")
  | "embargoed" => some (Ns.euAccessRight ++ "NON_PUBLIC")
  | "metadata-only" => some (Ns.euAccessRight ++ "NON_PUBLIC")
  | _ => none

section Agents

open Build

def agentTypes : Option String → List Statement
  | some "person" => a (Ns.t Ns.schema "Person")
  | some "organization" => a (Ns.t Ns.schema "Organization")
  | some "software" => a (Ns.t Ns.prov "SoftwareAgent") ++ a (Ns.t Ns.schema "SoftwareApplication")
  | _ => a (Ns.t Ns.prov "Agent")

def agentBody (platform : Platform) (agent : AgentIn) : List Statement :=
  agentTypes agent.kind ++ a (Ns.t Ns.prov "Agent") ++
    optText Ns.schema "name" agent.name ++
    optLink platform Ns.schema "identifier" agent.identifier ++
    optText Ns.schema "email" agent.email ++
    optLink platform Ns.schema "url" agent.homepage ++
    optText Ns.schema "softwareVersion" agent.version

/-- A bare IRI is used as it is. -/
def isBare (agent : AgentIn) : Bool := agent.name.isNone && agent.email.isNone && agent.homepage.isNone

def nonEmpty (value : Option String) : Option String := value.filter (fun text => text != "")

/-- The IRI an inline agent is written under, and whether it is described there. -/
def agentSubject (base : String) (draw : Draw) (agent : AgentIn) : Option (String × Bool) :=
  match nonEmpty agent.iri with
  | some iri => some (iri, !isBare agent)
  | none =>
    match agent.identifier.filter (fun id => startsWith id "http") with
    | some id => some (id, true)
    | none => if agent.name.isNone then none else some (mint base .agent draw, true)

/-- Write an inline agent, minting an IRI when the caller supplied fields rather than one. -/
def agentQuads (platform : Platform) (base : String) (draw : Draw) (agent : AgentIn) :
    Option String × List Quad :=
  match agentSubject base draw agent with
  | none => (none, [])
  | some (iri, true) => (some iri, describeLocal iri (agentBody platform agent))
  | some (iri, false) => (some iri, [])

/-- The agent of an optional field: what the record links to, and the quads written for it. -/
def optAgent (platform : Platform) (base : String) (draw : Draw) : Option AgentIn → Option String × List Quad
  | some agent => agentQuads platform base draw agent
  | none => (none, [])

end Agents

end ToolArtifactRegistry.Domain
