import ToolArtifactRegistry.Auth.Authenticate
import ToolArtifactRegistry.Domain.Artifact

/-! Advertisement endpoints: a run, what it produced and what it consumed. -/
namespace ToolArtifactRegistry.Api.Advertise

open Library.Rdf Library.Text Ids Model Store Rdf Build Auth Domain

inductive Role where
  | produced
  | consumed
  deriving DecidableEq

def Role.asStr : Role → String
  | .produced => "produced"
  | .consumed => "consumed"

def Role.scope : Role → String
  | .produced => scopeAdvertiseProduce
  | .consumed => scopeAdvertiseConsume

/-- A transaction in the making, with the tables it has already written to. -/
structure Progress where
  ops : Ops
  tx : GraphTx := {}
  artifacts : List String := []
  queued : List String := []
  created : Bool := false
  failed : Option AppError := none

namespace Progress

def extend (p : Progress) (quads : List Quad) : Progress := { p with tx := p.tx.extend quads }

def fail (p : Progress) (error : AppError) : Progress := { p with failed := some error }

def queue (p : Progress) (iri : String) : Progress :=
  { p with ops := p.ops.queueResolve iri, queued := p.queued ++ [iri] }

/-- The link an advertisement makes, the first time it is made. -/
def claim (platform : Platform) (p : Progress) (runIri artifactIri : String) (role : Role) : Progress :=
  let (fresh, ops) := p.ops.claimAdvertisement runIri artifactIri role.asStr
  let claimed := { p with ops := ops }
  if fresh then
    { claimed.extend (match role with
        | .consumed => describeLocal runIri (link platform Ns.prov "used" artifactIri)
        | .produced => describeLocal artifactIri (link platform Ns.prov "wasGeneratedBy" runIri)) with created := true }
  else claimed

end Progress

section

variable (server : Server) (data : Dataset)

def nonEmptyKey (run : RunIn) : Option String := nonEmpty run.externalKey

/-- A foreign IRI nothing here describes is queued for resolution. -/
def reference (p : Progress) (iri : String) : Progress :=
  if isLocal server.base iri then p
  else match exists_ server.platform data iri with
    | .error e => p.fail e
    | .ok known => if known then p else p.queue iri

/-- A second advertisement of the same attempt attaches to the same run. -/
def resolveRun (draw : Draw) (principal : Principal) (instanceIri : String) (run : RunIn) (p : Progress) :
    String × Progress :=
  match (nonEmptyKey run).bind (fun key => p.ops.runForKey key instanceIri) with
  | some iri => (iri, { p with tx := Run.updateRunOutcome server.platform p.tx iri run })
  | none =>
    let iri := mint server.base .run (draw.site 0)
    let started := { p.extend (Run.runQuads server.platform iri (draw.site 1) run instanceIri principal.subject) with
      created := true }
    (iri, match nonEmptyKey run with
      | some key => { started with ops := started.ops.rememberRun key instanceIri iri }
      | none => started)

/-- A stable identity for an artifact that carries none of its own. -/
def derivedKey (runKey : String) (a : ArtifactIn) : String :=
  "urn:tar:derived:" ++ server.platform.digest16 ([runKey, a.title.getD "", a.conformsTo.getD ""] ++
    a.distributions.flatMap (fun d => [d.downloadUrl.getD "", d.accessUrl.getD ""]))

def artifactKey (run : RunIn) (a : ArtifactIn) : Option String :=
  (nonEmpty a.externalKey).or (run.externalKey.map (fun runKey => derivedKey server runKey a))

/-- A described artifact: known by its key, or minted. -/
def describeArtifact (draw : Draw) (principal : Principal) (run : RunIn) (runIri : String) (role : Role) (p : Progress)
    (a : ArtifactIn) : Option String × Progress :=
  match (artifactKey server run a).bind p.ops.artifactForKey with
  | some iri => (some iri, p)
  | none =>
    let iri := mint server.base .artifact (draw.site 0)
    let generatedBy := if role = .produced then some runIri else none
    let described := p.extend (Artifact.artifactQuads server.platform server.base iri (draw.site 1) a
      principal.subject generatedBy)
    let parents := a.wasDerivedFrom.foldl (fun p parent => if p.failed.isSome then p else reference server data p parent)
      described
    if parents.failed.isSome then (none, parents)
    else
      (some iri, { (match artifactKey server run a with
        | some key => { parents with ops := parents.ops.rememberArtifact key iri }
        | none => parents) with created := true })

/-- The artifact of one entry: a reference stands for itself. -/
def entryIri (draw : Draw) (principal : Principal) (run : RunIn) (runIri : String) (role : Role) (p : Progress)
    (a : ArtifactIn) : Option String × Progress :=
  match nonEmpty a.iri with
  | some iri =>
    let referenced := reference server data p iri
    (if referenced.failed.isSome then none else some iri, referenced)
  | none => describeArtifact server data draw principal run runIri role p a

def addEntry (draw : Draw) (principal : Principal) (run : RunIn) (runIri : String) (role : Role) (p : Progress)
    (a : ArtifactIn) : Progress :=
  if p.failed.isSome then p
  else match entryIri server data draw principal run runIri role p a with
    | (some iri, next) =>
      let claimed := next.claim server.platform runIri iri role
      { claimed with artifacts := claimed.artifacts ++ [iri] }
    | (none, next) => next

def addEntries (draw : Draw) (principal : Principal) (run : RunIn) (runIri : String) (role : Role) (p : Progress)
    (entries : List ArtifactIn) : Progress :=
  entries.zipIdx.foldl (fun p entry => addEntry server data (draw.site entry.2) principal run runIri role p entry.1) p

/-- What a write of these artifacts would say, checked before anything is recorded. -/
def candidate (draw : Draw) (principal : Principal) (instanceIri : String) (input : AdvertiseIn) : List Quad :=
  Run.runQuads server.platform (mint server.base .run (draw.site 0)) (draw.site 1) input.run instanceIri
      principal.subject ++
    ((input.artifacts.filter (fun a => a.iri.isNone)).zipIdx.flatMap (fun entry =>
      Artifact.artifactQuads server.platform server.base (mint server.base .artifact ((draw.site 2).site entry.2))
        ((draw.site 3).site entry.2) entry.1 principal.subject none))

/-- The credential acts for a deployment this registry knows, and the write conforms. -/
def admitted (draw : Draw) (principal : Principal) (input : AdvertiseIn) (role : Role) : AppResult String := do
  principal.requireScope role.scope
  let instanceIri ← principal.requireInstance
  if !(← exists_ server.platform data instanceIri) then
    .error (AppError.forbidden ("credential names Instance " ++ instanceIri ++ ", which this registry does not know"))
  server.platform.enforceWrite data (candidate server draw principal instanceIri input)
  return instanceIri

end

section

variable (server : Server)

def runInput (run : RunIn) : RunIn := { run with release := run.release.map (iriFor server.base .release) }

/-- The transaction of a progress, applied unless it failed or has nothing to say. -/
def conclude {α : Type} (state : State) (p : Progress) (answer : α) : Outcome α :=
  match p.failed with
  | some e => ⟨{ state with ops := p.ops }, .error e⟩
  | none =>
    if p.tx.isEmpty then ⟨{ state with ops := p.ops }, .ok answer⟩
    else Outcome.commit server { state with ops := p.ops } p.tx (fun _ => .ok answer)

def advertise (state : State) (draw : Draw) (principal : Principal) (input : AdvertiseIn) (role : Role) :
    Outcome AdvertiseOut :=
  Outcome.planned state (admitted server state.data (draw.site 0) principal input role) (fun instanceIri =>
    let run := runInput server input.run
    let (runIri, started) := resolveRun server (draw.site 1) principal instanceIri run { ops := state.ops }
    let p := addEntries server state.data (draw.site 2) principal run runIri role started input.artifacts
    conclude server state p ⟨runIri, p.artifacts, p.created, p.queued⟩)

end

end ToolArtifactRegistry.Api.Advertise
