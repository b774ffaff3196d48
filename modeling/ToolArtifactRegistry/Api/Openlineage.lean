import ToolArtifactRegistry.Api.Advertise
import ToolArtifactRegistry.Api.Codec

/-! The OpenLineage adapter: a run event mapped onto a run and its artifacts. -/
namespace ToolArtifactRegistry.Api.Openlineage

open Library.Rdf Library.Text Library.Serde Ids Model Store Rdf Build Auth Domain
open Advertise (Progress resolveRun)

def textAt (value : Json) (path : List String) : Option String :=
  (path.foldlM (fun (at_ : Json) key => at_.get? key) value).bind Json.asString?

section

variable (server : Server)

def eventType (event : Json) : String :=
  String.ofList (((textAt event ["eventType"]).getD "OTHER").toList.flatMap server.platform.uppercase)

def statusOf : String → String
  | "COMPLETE" => "success"
  | "FAIL" => "failed"
  | "ABORT" => "failed"
  | _ => "running"

def terminal (eventType : String) : Bool := decide (eventType ∈ ["COMPLETE", "FAIL", "ABORT"])

/-- The run of an event; its time is the start of one that goes on, the end of one that is over. -/
def runOf (event : Json) : RunIn where
  externalKey := textAt event ["run", "runId"]
  label := textAt event ["job", "name"]
  startedAt := if terminal (eventType server event) then none else textAt event ["eventTime"]
  endedAt := if terminal (eventType server event) then textAt event ["eventTime"] else none
  status := some (statusOf (eventType server event))

/-- The whole event is kept; its namespace is a label only. -/
def payloadStatements (event : Json) : List Statement :=
  text Ns.tar "openLineagePayload" (server.platform.printJson event) ++
    optText Ns.tar "claimedNamespace" (textAt event ["job", "namespace"]) ++
    if (runOf server event).startedAt.isNone && !terminal (eventType server event) then
      datetime server.platform Ns.prov "startedAtTime" ((textAt event ["eventTime"]).getD "")
    else []

def protocolFor (namespace_ : String) : String :=
  let ns := toAsciiLowercase namespace_
  if startsWith ns "s3" then "s3"
  else if startsWith ns "file" then "file"
  else if contains ns "sparql" then "sparql"
  else "https"

def distributionOf (dataset : Json) (namespace_ name : String) : DistributionIn :=
  match (dataset.get? "facets").bind (fun facets => facets.get? "fairAccess") with
  | some fair => (Codec.decodeDistribution fair).toOption.getD {}
  | none =>
    { accessUrl := (textAt dataset ["facets", "dataSource", "uri"]).or
        (if startsWith namespace_ "http" then some (namespace_ ++ "/" ++ name) else none)
      mediaType := textAt dataset ["facets", "storage", "fileFormat"]
      accessProtocol := some (protocolFor namespace_)
      availability := some "restricted" }

def artifactOf (dataset : Json) (role : Advertise.Role) : ArtifactIn :=
  let namespace_ := (textAt dataset ["namespace"]).getD ""
  let name := (textAt dataset ["name"]).getD ""
  let key := namespace_ ++ "#" ++ name
  let distribution := distributionOf dataset namespace_ name
  { title := some (if name = "" then key else name)
    description := some ("Ingested from an OpenLineage " ++ role.asStr ++ " dataset in namespace " ++ namespace_)
    conformsTo := ((dataset.get? "facets").bind (fun facets => facets.get? "schema")).map
      (fun _ => "https://w3id.org/tar/ns#TabularDataset")
    externalKey := some key
    distributions := if distribution.accessUrl.isSome || distribution.downloadUrl.isSome then [distribution] else [] }

/-- The names in the symlinks facet. -/
def symlinks (dataset : Json) : List String :=
  (((((dataset.get? "facets").bind (fun facets => facets.get? "symlinks")).bind
    (fun s => s.get? "identifiers")).bind Json.asArray?).getD []).filterMap (fun l => textAt l ["name"])

/-- The first name that is one of ours, or that something here describes. -/
def matchSymlink (data : Dataset) : List String → AppResult (Option String)
  | [] => .ok none
  | name :: rest =>
    if startsWith name "http" then
      if isLocal server.base name then .ok (some name)
      else do
        if ← exists_ server.platform data name then return some name
        matchSymlink data rest
    else matchSymlink data rest

/-- Map one dataset onto an artifact: matched, known by its key, or minted. -/
def mapDataset (data : Dataset) (draw : Draw) (principal : Principal) (role : Advertise.Role) (p : Progress) (dataset : Json) :
    Option String × Progress :=
  match matchSymlink server data (symlinks dataset) with
  | .error e => (none, p.fail e)
  | .ok (some iri) => (some iri, p)
  | .ok none =>
    let input := artifactOf dataset role
    let key := input.externalKey.getD ""
    match p.ops.artifactForKey key with
    | some iri => (some iri, p)
    | none =>
      let iri := mint server.base .artifact (draw.site 0)
      let quads := Artifact.artifactQuads server.platform server.base iri (draw.site 1) input principal.subject none
      match server.platform.enforceVocabulary data quads with
      | .error e => (none, p.fail e)
      | .ok _ => (some iri, { p.extend quads with ops := p.ops.rememberArtifact key iri })

def addDataset (data : Dataset) (draw : Draw) (principal : Principal) (runIri : String) (role : Advertise.Role) (p : Progress)
    (dataset : Json) : Progress :=
  if p.failed.isSome then p
  else match mapDataset server data draw principal role p dataset with
    | (some iri, next) =>
      let claimed := next.claim server.platform runIri iri role
      { claimed with artifacts := claimed.artifacts ++ [iri] }
    | (none, next) => next

def datasets (event : Json) (key : String) : List Json := ((event.get? key).bind Json.asArray?).getD []

def addDatasets (data : Dataset) (draw : Draw) (principal : Principal) (runIri : String) (role : Advertise.Role) (p : Progress)
    (entries : List Json) : Progress :=
  entries.zipIdx.foldl
    (fun p entry => addDataset server data (draw.site entry.2) principal runIri role p entry.1) p

def admitted (data : Dataset) (principal : Principal) : AppResult String := do
  principal.requireScope scopeAdvertiseProduce
  let instanceIri ← principal.requireInstance
  if !(← exists_ server.platform data instanceIri) then
    .error (AppError.forbidden ("credential names unknown Instance " ++ instanceIri))
  return instanceIri

structure Ingested where
  run : String
  produced : List String
  consumed : List String
  mappedStatus : String

def ingest (state : State) (draw : Draw) (principal : Principal) (event : Json) : Outcome Ingested :=
  Outcome.planned state (admitted server state.data principal) (fun instanceIri =>
    let (runIri, started) := resolveRun server (draw.site 0) principal instanceIri (runOf server event) { ops := state.ops }
    let kept := started.extend (describeLocal runIri (payloadStatements server event))
    let outputs := addDatasets server state.data (draw.site 1) principal runIri .produced kept (datasets event "outputs")
    let p := addDatasets server state.data (draw.site 2) principal runIri .consumed { outputs with artifacts := [] }
      (datasets event "inputs")
    match p.failed with
    | some e => ⟨{ state with ops := p.ops }, .error e⟩
    | none => Outcome.commit server { state with ops := p.ops } p.tx
        (fun _ => .ok ⟨runIri, outputs.artifacts, p.artifacts, statusOf (eventType server event)⟩))

end

end ToolArtifactRegistry.Api.Openlineage
