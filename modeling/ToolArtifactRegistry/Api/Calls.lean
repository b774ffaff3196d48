import ToolArtifactRegistry.Api.Openlineage
import ToolArtifactRegistry.Library.Programs

/-! The advertisement endpoints call by call: every read of the graph, every read and write of a table and
the one transaction are steps that other requests, or the end of the process, may come between. -/
namespace ToolArtifactRegistry.Api.Calls

open Library.Rdf Library.Text Library.Serde Library.Programs Ids Model Store Rdf Build Domain
open Auth hiding Role
open Advertise (Role nonEmptyKey derivedKey artifactKey candidate runInput)

/-- What a record is remembered by. -/
inductive Key where
  | run (externalKey instanceIri : String)
  | artifact (externalKey : String)
  deriving DecidableEq

/-- The state, and the keyed records whose descriptions have been committed. -/
structure Journal where
  state : State
  committed : List (Key × String) := []

inductive Call where
  | exists_ (iri : String)
  | conforms (quads : List Quad)
  | declared (quads : List Quad)
  | runForKey (externalKey instanceIri : String)
  | rememberRun (externalKey instanceIri runIri : String)
  | artifactForKey (externalKey : String)
  | rememberArtifact (externalKey artifactIri : String)
  | claim (runIri artifactIri : String) (role : Role)
  | queueResolve (iri : String)
  | apply (tx : GraphTx) (described : List (Key × String))

def Call.Reply : Call → Type
  | .exists_ _ => AppResult Bool
  | .conforms _ | .declared _ | .apply _ _ => AppResult Unit
  | .runForKey _ _ | .artifactForKey _ => Option String
  | .claim _ _ _ => Bool
  | .rememberRun _ _ _ | .rememberArtifact _ _ | .queueResolve _ => Unit

def Journal.setOps (journal : Journal) (ops : Ops) : Journal := { journal with state := { journal.state with ops } }

section

variable (server : Server)

def perform : (call : Call) → Journal → call.Reply × Journal
  | .exists_ iri, j => (exists_ server.platform j.state.data iri, j)
  | .conforms quads, j => (server.platform.enforceWrite j.state.data quads, j)
  | .declared quads, j => (server.platform.enforceVocabulary j.state.data quads, j)
  | .runForKey key instanceIri, j => (j.state.ops.runForKey key instanceIri, j)
  | .rememberRun key instanceIri iri, j => ((), j.setOps (j.state.ops.rememberRun key instanceIri iri))
  | .artifactForKey key, j => (j.state.ops.artifactForKey key, j)
  | .rememberArtifact key iri, j => ((), j.setOps (j.state.ops.rememberArtifact key iri))
  | .claim runIri iri role, j =>
    ((j.state.ops.claimAdvertisement runIri iri role.asStr).1,
      j.setOps (j.state.ops.claimAdvertisement runIri iri role.asStr).2)
  | .queueResolve iri, j => ((), j.setOps (j.state.ops.queueResolve iri))
  | .apply tx described, j =>
    match Store.apply server.platform j.state.data tx with
    | .error e => (.error e, j)
    | .ok data => (.ok (), ⟨{ j.state with data }, j.committed ++ described⟩)

abbrev desk : System where
  State := Journal
  Call := Call
  Reply := Call.Reply
  perform := perform server

/-- A request under way: calls, and an answer or an error. -/
abbrev Handler (α : Type) := ExceptT AppError (Program (desk server)) α

/-- A request served with nothing between its calls. -/
def serve {α : Type} (handler : Handler server α) (journal : Journal) : AppResult α × Journal :=
  handler.run.finish journal

/-- A call that may fail. -/
def attempt {α : Type} (call : Call) (reply : call.Reply = AppResult α) : Handler server α :=
  ExceptT.mk (Program.call call (fun answer => Program.done (cast reply answer)))

/-- A call that answers. -/
def ask (call : Call) : Handler server call.Reply :=
  ExceptT.mk (Program.call call (fun answer => Program.done (.ok answer)))

def known (iri : String) : Handler server Bool := attempt server (.exists_ iri) rfl

def conforms (quads : List Quad) : Handler server Unit := attempt server (.conforms quads) rfl

def declared (quads : List Quad) : Handler server Unit := attempt server (.declared quads) rfl

def applied (tx : GraphTx) (described : List (Key × String)) : Handler server Unit :=
  attempt server (.apply tx described) rfl

/-- A transaction in the making. -/
structure Draft where
  tx : GraphTx := {}
  artifacts : List String := []
  queued : List String := []
  created : Bool := false
  /-- The keyed records the transaction describes. -/
  described : List (Key × String) := []

namespace Draft

def extend (draft : Draft) (quads : List Quad) : Draft := { draft with tx := draft.tx.extend quads }

/-- What the transaction describes, when it has a key. -/
def describe (draft : Draft) (key : Option Key) (iri : String) : Draft :=
  { draft with described := draft.described ++ (key.map (fun key => (key, iri))).toList }

def add (draft : Draft) (iri : String) : Draft := { draft with artifacts := draft.artifacts ++ [iri] }

end Draft

/-- A foreign IRI nothing here describes is queued for resolution. -/
def reference (draft : Draft) (iri : String) : Handler server Draft :=
  if isLocal server.base iri then return draft
  else do
    if ← known server iri then return draft
    ask server (.queueResolve iri)
    return { draft with queued := draft.queued ++ [iri] }

def referenceAll (draft : Draft) : List String → Handler server Draft
  | [] => return draft
  | iri :: rest => do referenceAll (← reference server draft iri) rest

def lookupRun (run : RunIn) (instanceIri : String) : Handler server (Option String) :=
  match nonEmptyKey run with
  | none => return none
  | some key => ask server (.runForKey key instanceIri)

def rememberRun (run : RunIn) (instanceIri runIri : String) : Handler server Unit :=
  match nonEmptyKey run with
  | none => return ()
  | some key => ask server (.rememberRun key instanceIri runIri)

def runKey (run : RunIn) (instanceIri : String) : Option Key := (nonEmptyKey run).map (fun key => .run key instanceIri)

/-- A second advertisement of the same attempt attaches to the same run. -/
def resolveRun (draw : Draw) (principal : Principal) (instanceIri : String) (run : RunIn) (draft : Draft) :
    Handler server (String × Draft) := do
  match ← lookupRun server run instanceIri with
  | some iri => return (iri, { draft with tx := Run.updateRunOutcome server.platform draft.tx iri run })
  | none =>
    let iri := mint server.base .run (draw.site 0)
    let quads := Run.runQuads server.platform iri (draw.site 1) run instanceIri principal.subject
    rememberRun server run instanceIri iri
    return (iri, { (draft.extend quads).describe (runKey run instanceIri) iri with created := true })

def lookupArtifact : Option String → Handler server (Option String)
  | none => return none
  | some key => ask server (.artifactForKey key)

def rememberArtifact (iri : String) : Option String → Handler server Unit
  | none => return ()
  | some key => ask server (.rememberArtifact key iri)

/-- A described artifact: known by its key, or minted. -/
def describeArtifact (draw : Draw) (principal : Principal) (run : RunIn) (runIri : String) (role : Role) (draft : Draft)
    (a : ArtifactIn) : Handler server (String × Draft) := do
  match ← lookupArtifact server (artifactKey server run a) with
  | some iri => return (iri, draft)
  | none =>
    let iri := mint server.base .artifact (draw.site 0)
    let generatedBy := if role = .produced then some runIri else none
    let quads := Artifact.artifactQuads server.platform server.base iri (draw.site 1) a principal.subject generatedBy
    let parents ← referenceAll server (draft.extend quads) a.wasDerivedFrom
    rememberArtifact server iri (artifactKey server run a)
    return (iri, { parents.describe ((artifactKey server run a).map Key.artifact) iri with created := true })

/-- The artifact of one entry: a reference stands for itself. -/
def entryIri (draw : Draw) (principal : Principal) (run : RunIn) (runIri : String) (role : Role) (draft : Draft)
    (a : ArtifactIn) : Handler server (String × Draft) :=
  match nonEmpty a.iri with
  | some iri => do return (iri, ← reference server draft iri)
  | none => describeArtifact server draw principal run runIri role draft a

/-- The quads of a link, from the run or from the artifact it produced. -/
def linkQuads (platform : Platform) (runIri iri : String) : Role → List Quad
  | .consumed => describeLocal runIri (link platform Ns.prov "used" iri)
  | .produced => describeLocal iri (link platform Ns.prov "wasGeneratedBy" runIri)

def firstTime (runIri iri : String) (role : Role) : Handler server Bool := ask server (.claim runIri iri role)

/-- The link an advertisement makes, the first time it is made. -/
def claim (runIri : String) (role : Role) (draft : Draft) (iri : String) : Handler server Draft := do
  if ← firstTime server runIri iri role then
    return { draft.extend (linkQuads server.platform runIri iri role) with created := true }
  return draft

def addEntries (draw : Draw) (principal : Principal) (run : RunIn) (runIri : String) (role : Role) (draft : Draft) :
    List (ArtifactIn × Nat) → Handler server Draft
  | [] => return draft
  | (a, place) :: rest => do
    let (iri, described) ← entryIri server (draw.site place) principal run runIri role draft a
    let claimed ← claim server runIri role described iri
    addEntries draw principal run runIri role (claimed.add iri) rest

/-- The credential acts for a deployment this registry knows, and the write conforms. -/
def admitted (draw : Draw) (principal : Principal) (input : AdvertiseIn) (role : Role) : Handler server String := do
  let instanceIri ← ExceptT.mk (Program.done (do
    principal.requireScope role.scope
    principal.requireInstance))
  if !(← known server instanceIri) then
    throw (AppError.forbidden ("credential names Instance " ++ instanceIri ++ ", which this registry does not know"))
  conforms server (candidate server draw principal instanceIri input)
  return instanceIri

/-- A transaction that says nothing is not applied. -/
def commit (draft : Draft) : Handler server Unit :=
  if draft.tx.isEmpty then return () else applied server draft.tx draft.described

def advertise (draw : Draw) (principal : Principal) (input : AdvertiseIn) (role : Role) : Handler server AdvertiseOut := do
  let instanceIri ← admitted server (draw.site 0) principal input role
  let run := runInput server input.run
  let (runIri, started) ← resolveRun server (draw.site 1) principal instanceIri run {}
  let draft ← addEntries server (draw.site 2) principal run runIri role started input.artifacts.zipIdx
  commit server draft
  return ⟨runIri, draft.artifacts, draft.created, draft.queued⟩

end

section Openlineage

open Openlineage (artifactOf symlinks datasets runOf payloadStatements Ingested statusOf eventType)

variable (server : Server)

/-- The first name that is one of ours, or that something here describes. -/
def matchSymlink : List String → Handler server (Option String)
  | [] => return none
  | name :: rest =>
    if startsWith name "http" then
      if isLocal server.base name then return some name
      else do
        if ← known server name then return some name
        matchSymlink rest
    else matchSymlink rest

def mapDataset (draw : Draw) (principal : Principal) (role : Role) (draft : Draft) (dataset : Json) :
    Handler server (String × Draft) := do
  match ← matchSymlink server (symlinks dataset) with
  | some iri => return (iri, draft)
  | none =>
    let input := artifactOf dataset role
    let key := input.externalKey.getD ""
    match ← lookupArtifact server (some key) with
    | some iri => return (iri, draft)
    | none =>
      let iri := mint server.base .artifact (draw.site 0)
      let quads := Artifact.artifactQuads server.platform server.base iri (draw.site 1) input principal.subject none
      declared server quads
      rememberArtifact server iri (some key)
      return (iri, (draft.extend quads).describe (some (.artifact key)) iri)

def addDatasets (draw : Draw) (principal : Principal) (runIri : String) (role : Role) (draft : Draft) :
    List (Json × Nat) → Handler server Draft
  | [] => return draft
  | (dataset, place) :: rest => do
    let (iri, mapped) ← mapDataset server (draw.site place) principal role draft dataset
    let claimed ← claim server runIri role mapped iri
    addDatasets draw principal runIri role (claimed.add iri) rest

def ingestAdmitted (principal : Principal) : Handler server String := do
  let instanceIri ← ExceptT.mk (Program.done (do
    principal.requireScope scopeAdvertiseProduce
    principal.requireInstance))
  if !(← known server instanceIri) then
    throw (AppError.forbidden ("credential names unknown Instance " ++ instanceIri))
  return instanceIri

def ingest (draw : Draw) (principal : Principal) (event : Json) : Handler server Ingested := do
  let instanceIri ← ingestAdmitted server principal
  let (runIri, started) ← resolveRun server (draw.site 0) principal instanceIri (runOf server event) {}
  let kept := started.extend (describeLocal runIri (payloadStatements server event))
  let outputs ← addDatasets server (draw.site 1) principal runIri .produced kept (datasets event "outputs").zipIdx
  let draft ← addDatasets server (draw.site 2) principal runIri .consumed { outputs with artifacts := [] }
    (datasets event "inputs").zipIdx
  applied server draft.tx draft.described
  return ⟨runIri, outputs.artifacts, draft.artifacts, statusOf (eventType server event)⟩

end Openlineage

end ToolArtifactRegistry.Api.Calls
