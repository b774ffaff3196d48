import ToolArtifactRegistry.Api.Instances
import ToolArtifactRegistry.Domain.Forge

/-! Software and Release endpoints: registration, the merging PATCH, withdrawal, releases, and the
synchronisation with a source repository. -/
namespace ToolArtifactRegistry.Api.Software

open Library.Rdf Library.Text Library.Serde Ids Model Store Rdf Build Auth Domain
open Domain.Software (softwareQuads replaceSoftware releaseQuads loadSoftware listReleases releaseFromProps syncIri)
open Instances (Write tombstone notAuthoritative putCapabilityOn)

section

variable (server : Server)

/-- Refuse a registration binding that could never authorise anybody. -/
def checkRegistrationBinding (input : SoftwareIn) : AppResult Unit :=
  if input.registrationClients.isEmpty || input.registrationIssuer.isSome then .ok ()
  else if server.config.oidc.issuerPinRequired then
    .error (AppError.badRequest ("registration_issuer is required: this registry accepts tokens from " ++
      join ", " server.config.oidc.acceptedIssuers ++
      ", and a client id is only unique within an issuer. Name the one these registration clients belong to."))
  else .ok ()

def checkSync : Option SyncIn → AppResult Unit
  | some sync => Forge.checkFields sync.fields
  | none => .ok ()

def settle (state : State) (draw : Draw) (plan : AppResult Write) : Outcome Software :=
  Outcome.planned state plan (fun write => Outcome.commit server state write.tx
    (fun after => loadSoftware (server.ctx after draw) write.iri))

def createPlan (state : State) (draw : Draw) (principal : Principal) (input : SoftwareIn) : AppResult Write := do
  principal.requireCurator
  checkRegistrationBinding server input
  checkSync input.sync
  let iri := mint server.base .software (draw.site 0)
  let quads := softwareQuads server.platform server.base iri (draw.site 1) input principal.subject none
  server.platform.enforceWrite state.data quads
  return ⟨iri, ({} : GraphTx).extend quads⟩

def create (state : State) (draw : Draw) (principal : Principal) (input : SoftwareIn) : Outcome Software :=
  settle server state draw (createPlan server state draw principal input)

/-- The stored record with the body merged onto it. -/
def patched (current : Software) (body : Json) : AppResult SoftwareIn :=
  match Codec.decodeSoftware (Codec.mergeJson (Codec.encodeSoftware (Codec.softwareInFrom current)) body) with
  | .error e => .error (AppError.badRequest ("could not apply the change: " ++ server.platform.decodeMessage e))
  | .ok input => .ok input

def patchPlan (state : State) (draw : Draw) (principal : Principal) (id : String) (body : Json) : AppResult Write := do
  principal.requireCurator
  let iri := iriFor server.base .software id
  if !isLocal server.base iri then .error notAuthoritative
  let existing ← describe server.platform state.data iri
  if existing.isEmpty then .error (AppError.notFound s!"no software at {iri}")
  let current ← loadSoftware (server.ctx state draw) iri
  let input ← patched server current body
  checkRegistrationBinding server input
  checkSync input.sync
  let tx := replaceSoftware server.platform server.base iri draw input principal.subject
    ((Props.fromQuads iri existing).str Ns.dct "created")
  server.platform.enforceWrite state.data tx.insert
  return ⟨iri, tx⟩

def patch (state : State) (draw : Draw) (principal : Principal) (id : String) (body : Json) : Outcome Software :=
  settle server state draw (patchPlan server state draw principal id body)

def softDelete (state : State) (draw : Draw) (principal : Principal) (id : String) : Outcome Unit :=
  Outcome.planned state principal.requireCurator
    (fun _ => tombstone server state draw principal (iriFor server.base .software id))

def createReleasePlan (state : State) (draw : Draw) (principal : Principal) (id : String) (input : ReleaseIn) :
    AppResult Write := do
  principal.requireCurator
  let softwareIri := iriFor server.base .software id
  let iri := mint server.base .release (draw.site 0)
  if !(← exists_ server.platform state.data softwareIri) then
    .error (AppError.notFound s!"no software at {softwareIri}")
  let quads := releaseQuads server.platform server.base iri softwareIri (draw.site 1) input principal.subject
  server.platform.enforceWrite state.data quads
  return ⟨iri, ({} : GraphTx).extend quads⟩

def createRelease (state : State) (draw : Draw) (principal : Principal) (id : String) (input : ReleaseIn) :
    Outcome Release :=
  Outcome.planned state (createReleasePlan server state draw principal id input) (fun write =>
    Outcome.commit server state write.tx (fun after => do
      let quads ← describe server.platform after.data write.iri
      return releaseFromProps (server.ctx after draw) write.iri (Props.fromQuads write.iri quads)))

/-- A release is withdrawn under the software it is a version of. -/
def releaseOf (data : Dataset) (iri softwareIri : String) : AppResult Unit := do
  let quads ← describe server.platform data iri
  if quads.isEmpty then .error (AppError.notFound s!"no release at {iri}")
  if (Props.fromQuads iri quads).iri Ns.dct "isVersionOf" ≠ some softwareIri then
    .error (AppError.notFound "that release does not belong to this software")

def deleteReleasePlan (state : State) (principal : Principal) (id releaseId : String) : AppResult Unit := do
  principal.requireCurator
  releaseOf server state.data (iriFor server.base .release releaseId) (iriFor server.base .software id)

def deleteRelease (state : State) (draw : Draw) (principal : Principal) (id releaseId : String) : Outcome Unit :=
  Outcome.planned state (deleteReleasePlan server state principal id releaseId)
    (fun _ => tombstone server state draw principal (iriFor server.base .release releaseId))

def putCapability (state : State) (draw : Draw) (principal : Principal) (id : String) (input : CapabilityIn) :
    Outcome (Option Capability) :=
  Outcome.planned state principal.requireCurator
    (fun _ => putCapabilityOn server state draw (iriFor server.base .software id) input "software")

end

section Sync

variable (server : Server)

structure SyncAnswer where
  software : Software
  changed : List String
  releasesAdded : List String
  skipped : List String

/-- The repository a record is connected to, and the record. -/
def syncable (state : State) (draw : Draw) (iri : String) : AppResult (Software × SyncStatus × Option String) := do
  let quads ← describe server.platform state.data iri
  if quads.isEmpty then .error (AppError.notFound s!"no software at {iri}")
  let existing ← loadSoftware (server.ctx state draw) iri
  match existing.sync with
  | none => .error (AppError.badRequest
      "this record is not connected to a repository — set `sync` on it first")
  | some cfg =>
    if !cfg.enabled then .error (AppError.badRequest "sync is disabled for this record")
    return (existing, cfg, (Props.fromQuads iri quads).str Ns.dct "created")

def bookkeeping : List String := ["syncedAt", "syncStatus", "syncError", "syncChanged"]

def syncStatusStatements (status : SyncStatus) : List Statement :=
  optDatetime server.platform Ns.tar "syncedAt" status.lastSyncedAt ++
    text Ns.tar "syncStatus" status.lastStatus ++
    optText Ns.tar "syncError" status.lastError ++
    texts Ns.tar "syncChanged" status.lastChanged

def syncStatusTx (iri : String) (status : SyncStatus) : GraphTx :=
  (bookkeeping.foldl (fun tx localName => GraphTx.replaceProperty tx (syncIri iri) (Ns.tar ++ localName) Ns.gLocal)
    {}).extend (describeLocal (syncIri iri) (syncStatusStatements server status))

/-- Persist just the sync bookkeeping, without rewriting the record. -/
def writeSyncStatus (state : State) (iri : String) (status : SyncStatus) : Outcome Unit :=
  Outcome.commit server state (syncStatusTx server iri status) (fun _ => .ok ())

def forgeUnreachable (message : String) : AppError :=
  (AppError.new 502 "forge-unreachable" "Repository sync failed").withDetail message

def syncPlan (state : State) (draw : Draw) (principal : Principal) (iri : String) (created : Option String)
    (input : SoftwareIn) : AppResult GraphTx := do
  let tx := replaceSoftware server.platform server.base iri draw input principal.subject created
  server.platform.enforceWrite state.data tx.insert
  return tx

/-- Versions already registered are left alone; each new one is a record of its own. -/
def addReleases (principal : Principal) (draw : Draw) (iri : String) (known : List String) :
    Nat → List ReleaseIn → State → List String → Outcome (List String)
  | _, [], state, added => ⟨state, .ok added⟩
  | place, release :: rest, state, added =>
    if release.version ∈ known then addReleases principal draw iri known (place + 1) rest state added
    else
      let releaseIri := mint server.base .release ((draw.site place).site 0)
      let quads := releaseQuads server.platform server.base releaseIri iri ((draw.site place).site 1) release
        principal.subject
      match server.platform.enforceWrite state.data quads with
      | .error _ => addReleases principal draw iri known (place + 1) rest state added
      | .ok _ =>
        match Store.apply server.platform state.data (({} : GraphTx).extend quads) with
        | .error e => ⟨state, .error e⟩
        | .ok data => addReleases principal draw iri known (place + 1) rest { state with data } (added ++ [release.version])

def newReleases (principal : Principal) (draw : Draw) (iri : String) (releases : List ReleaseIn) (state : State) :
    Outcome (List String) :=
  if releases.isEmpty then ⟨state, .ok []⟩
  else addReleases server principal draw iri ((listReleases (server.ctx state draw) iri).map Release.version) 0
    releases state []

def failedStatus (cfg : SyncStatus) (now message : String) : SyncStatus :=
  { cfg with lastSyncedAt := some now, lastStatus := "error", lastError := some message, lastChanged := [] }

def syncedStatus (cfg : SyncStatus) (now : String) (changed : List String) : SyncStatus :=
  { cfg with lastSyncedAt := some now, lastStatus := "ok", lastError := none, lastChanged := changed }

def syncInOf (cfg : SyncStatus) : SyncIn := ⟨cfg.source, cfg.repo, cfg.fields, cfg.enabled⟩

/-- Write what the repository said: the record, the bookkeeping, and the releases that are new. -/
def recordSync (state : State) (draw : Draw) (principal : Principal) (iri : String) (cfg : SyncStatus)
    (created : Option String) (synced : Forge.Syncing) : Outcome SyncAnswer :=
  let status := syncedStatus cfg draw.now synced.out.changed
  let written := Outcome.planned state
    (syncPlan server state (draw.site 0) principal iri created { synced.input with sync := some (syncInOf cfg) })
    (fun tx => Outcome.commit server state tx (fun _ => .ok ()))
  (written.andThen (fun state _ => writeSyncStatus server state iri status)).andThen (fun state _ =>
    (newReleases server principal (draw.site 1) iri synced.out.releases state).andThen (fun state added =>
      (if added.isEmpty then (⟨state, .ok ()⟩ : Outcome Unit)
        else writeSyncStatus server state iri { status with lastChanged := status.lastChanged ++ ["releases"] }).andThen
        (fun state _ => ⟨state, do
          let software ← loadSoftware (server.ctx state draw) iri
          return { software, skipped := synced.out.skipped, releasesAdded := added,
                   changed := if added.isEmpty then synced.out.changed else synced.out.changed ++ ["releases"] }⟩)))

/-- Pull the managed fields from the source repository. -/
def sync (state : State) (draw : Draw) (principal : Principal) (id : String) (forge : Forge.GitHub) :
    Outcome SyncAnswer :=
  let iri := iriFor server.base .software id
  Outcome.planned state principal.requireCurator (fun _ =>
    Outcome.planned state (syncable server state draw iri) (fun (existing, cfg, created) =>
      match Forge.syncInto server.platform forge cfg.repo cfg.fields (Codec.softwareInFrom existing) with
      | .error message =>
        (writeSyncStatus server state iri (failedStatus cfg draw.now message)).andThen
          (fun state _ => ⟨state, .error (forgeUnreachable message)⟩)
      | .ok synced => recordSync server state draw principal iri cfg created synced))

end Sync

end ToolArtifactRegistry.Api.Software
