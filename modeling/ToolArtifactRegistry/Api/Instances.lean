import ToolArtifactRegistry.Api.Codec
import ToolArtifactRegistry.Auth.Authenticate

/-! Instance endpoints: registration, the merging PATCH, withdrawal, and the announcement a
deployment makes of itself. -/
namespace ToolArtifactRegistry.Api.Instances

open Library.Rdf Library.Text Library.Serde Ids Model Store Rdf Build Auth Domain

/-- What a successful write says and where. -/
structure Write where
  iri : String
  tx : GraphTx

section

variable (server : Server)

def notDeployable (name endpoint : String) : AppError :=
  ((AppError.new 422 "not-deployable" "Endpoint on software that cannot be hosted").withDetail
    (name ++ " is marked as not deployable — it runs on a machine rather than being hosted — so this instance is an installation and cannot have an endpoint. Remove endpoint_url (" ++
      endpoint ++ "), or clear `deployable: false` on the software if that is wrong.")).withField "field"
    (.string "endpoint_url")

/-- Reject an endpoint on an instance of software that cannot be hosted. -/
def checkDeployable (data : Dataset) (software : Option String) (input : InstanceIn) : AppResult Unit :=
  match software, nonEmpty input.endpointUrl with
  | some sw, some endpoint => do
    let quads ← describe server.platform data sw
    let props := Props.fromQuads sw quads
    if props.bool Ns.tar "deployable" = some false then
      .error (notDeployable ((props.str Ns.schema "name").getD sw) endpoint)
  | _, _ => .ok ()

/-- The software named, or the one the named release is a version of. -/
def resolveSoftwareFor (data : Dataset) (input : InstanceIn) : AppResult (Option String) :=
  match nonEmpty input.software with
  | some sw => .ok (some (iriFor server.base .software sw))
  | none =>
    match nonEmpty input.release with
    | some r => do
      let iri := iriFor server.base .release r
      let quads ← describe server.platform data iri
      return (Props.fromQuads iri quads).iri Ns.dct "isVersionOf"
    | none => .ok none

/-- The registry's record of who owns a deployment never arrives over the wire. -/
def received (input : InstanceIn) : InstanceIn :=
  { input with
    selfRegisteredBy := none
    selfRegisteredIssuer := none
    instanceKey := none
    software := input.software.map (iriFor server.base .software) }

def refuseSoftware (bound named : String) : AppError :=
  AppError.forbidden ("this credential registers deployments of " ++ bound ++ ", not of " ++ named)

/-- A credential bound to one application decides which software its deployments belong to. -/
def bindSoftware (principal : Principal) (input : InstanceIn) : AppResult InstanceIn :=
  match principal.softwareIri with
  | none => .ok input
  | some bound =>
    match input.software with
    | some named => if named ≠ bound then .error (refuseSoftware bound named) else .ok { input with software := some bound }
    | none => .ok { input with software := some bound }

def nameRelease (input : InstanceIn) : InstanceIn :=
  { input with release := input.release.map (iriFor server.base .release) }

/-- A new record: its software resolved, its quads checked, nothing deleted. -/
def registration (state : State) (draw : Draw) (iri : String) (input : InstanceIn) (actor : String) :
    AppResult GraphTx := do
  let software ← resolveSoftwareFor server state.data input
  checkDeployable server state.data software input
  let quads := Instance.instanceQuads server.platform server.base iri draw input actor software
  server.platform.enforceWrite state.data quads
  return ({} : GraphTx).extend quads

def createPlan (state : State) (draw : Draw) (principal : Principal) (input : InstanceIn) : AppResult Write := do
  if !principal.isCurator then principal.requireScope scopeRegisterInstance
  let bound ← bindSoftware principal (received server input)
  let iri := mint server.base .instance_ (draw.site 0)
  let tx ← registration server state (draw.site 1) iri (nameRelease server bound) principal.subject
  return ⟨iri, tx⟩

/-- Apply a plan and answer with the record as it then reads. -/
def settle (state : State) (draw : Draw) (plan : AppResult Write) : Outcome Instance :=
  Outcome.planned state plan (fun write => Outcome.commit server state write.tx
    (fun after => Instance.loadInstance (server.ctx after draw) write.iri))

def create (state : State) (draw : Draw) (principal : Principal) (input : InstanceIn) : Outcome Instance :=
  settle server state draw (createPlan server state draw principal input)

def notAuthoritative : AppError :=
  AppError.forbidden "this registry is not authoritative for that IRI (spec §9.7)"

def maintainsItself (owner : String) : AppError :=
  AppError.forbidden ("this deployment maintains its own record — it was registered by " ++ owner ++
    ", and                          re-states these fields every time it announces itself, so an edit made here                          would be overwritten without warning. The deployment changes them at                          PUT /api/v1/instances/self. To stop it, withdraw the record or revoke the                          credential it registered with.")

/-- A self-registered deployment owns its own record. -/
def checkOwner (principal : Principal) (current : Instance) : AppResult Unit :=
  match current.selfRegisteredBy with
  | some owner => if principal.instanceIri ≠ some current.iri then .error (maintainsItself owner) else .ok ()
  | none => .ok ()

/-- The stored record with the body merged onto it; the body never decides the owner. -/
def patched (current : Instance) (body : Json) : AppResult InstanceIn :=
  match Codec.decodeInstance (Codec.mergeJson (Codec.encodeInstance (Codec.instanceInFrom current)) body) with
  | .error e => .error (AppError.badRequest ("could not apply the change: " ++ server.platform.decodeMessage e))
  | .ok input => .ok
    { input with
      selfRegisteredBy := current.selfRegisteredBy
      selfRegisteredIssuer := current.selfRegisteredIssuer
      instanceKey := current.instanceKey
      software := input.software.map (iriFor server.base .software)
      release := input.release.map (iriFor server.base .release) }

def patchPlan (state : State) (draw : Draw) (principal : Principal) (id : String) (body : Json) : AppResult Write := do
  let iri := iriFor server.base .instance_ id
  if !principal.actsForInstance iri then principal.requireCurator
  if !isLocal server.base iri then .error notAuthoritative
  if !(← exists_ server.platform state.data iri) then .error (AppError.notFound s!"no instance at {iri}")
  let current ← Instance.loadInstance (server.ctx state draw) iri
  checkOwner principal current
  let input ← patched server current body
  let software ← resolveSoftwareFor server state.data input
  checkDeployable server state.data software input
  let tx := Instance.replaceInstance server.platform server.base iri draw input principal.subject software
  server.platform.enforceWrite state.data tx.insert
  return ⟨iri, tx⟩

def patch (state : State) (draw : Draw) (principal : Principal) (id : String) (body : Json) : Outcome Instance :=
  settle server state draw (patchPlan server state draw principal id body)

/-- What a tombstone says about the record it is put on. -/
def tombstoneStatements (draw : Draw) (actor : String) : List Statement :=
  boolean Ns.tar "tombstoned" true ++ datetime server.platform Ns.tar "tombstonedAt" draw.now ++
    link server.platform Ns.adms "status" (Ns.euDatasetStatus ++ "WITHDRAWN") ++
    link server.platform Ns.prov "wasAttributedTo" actor

def tombstonePlan (state : State) (draw : Draw) (principal : Principal) (iri : String) : AppResult GraphTx := do
  let existing ← describe server.platform state.data iri
  if existing.isEmpty then .error (AppError.notFound s!"nothing at {iri}")
  return ({} : GraphTx).extend (describeLocal iri (tombstoneStatements server draw principal.subject))

def tombstone (state : State) (draw : Draw) (principal : Principal) (iri : String) : Outcome Unit :=
  Outcome.planned state (tombstonePlan server state draw principal iri)
    (fun tx => Outcome.commit server state tx (fun _ => .ok ()))

def softDelete (state : State) (draw : Draw) (principal : Principal) (id : String) : Outcome Unit :=
  Outcome.planned state principal.requireCurator
    (fun _ => tombstone server state draw principal (iriFor server.base .instance_ id))

/-- The capability node of a record is rewritten where it stands, or minted. -/
def capabilityPlan (state : State) (draw : Draw) (subject : String) (input : CapabilityIn) : AppResult Write := do
  let existing ← describe server.platform state.data subject
  if existing.isEmpty then .error (AppError.notFound s!"nothing at {subject}")
  let capIri := ((Props.fromQuads subject existing).iri Ns.tar "hasCapability").getD
    (mint server.base .capability draw)
  let quads := Software.capabilityQuads server.platform capIri input
  server.platform.enforceWrite state.data quads
  return ⟨capIri, ((({} : GraphTx).replaceSubject capIri Ns.gLocal).extend quads).extend
    (describeLocal subject (link server.platform Ns.tar "hasCapability" capIri))⟩

def putCapabilityOn (state : State) (draw : Draw) (subject : String) (input : CapabilityIn) (layer : String) :
    Outcome (Option Capability) :=
  Outcome.planned state (capabilityPlan server state draw subject input) (fun write =>
    Outcome.commit server state write.tx (fun after =>
      .ok (Software.capabilityFrom (server.ctx after draw) write.iri layer)))

def mayDeclare (principal : Principal) (iri : String) : AppResult Unit :=
  if principal.actsForInstance iri then .ok () else principal.requireCurator

def putCapability (state : State) (draw : Draw) (principal : Principal) (id : String) (input : CapabilityIn) :
    Outcome (Option Capability) :=
  Outcome.planned state (mayDeclare principal (iriFor server.base .instance_ id)) (fun _ =>
    putCapabilityOn server state draw (iriFor server.base .instance_ id) input "instance")

end

section Announce

variable (server : Server)

/-- The deployment this credential registered under this name, while it is not withdrawn. -/
def findSelfRegistered (data : Dataset) (subject key : String) : Option String :=
  ((data.matching (fun quad => decide (quad.predicate = Ns.t Ns.tar "selfRegisteredBy" ∧
      quad.object = .simple subject ∧ quad.graph = Ns.gLocal))).filter (fun quad =>
    data.any (fun named => decide (named.subject = quad.subject ∧ named.predicate = Ns.t Ns.tar "instanceKey" ∧
      named.object = .simple key ∧ named.graph = Ns.gLocal)) &&
    !isTombstoned data quad.subject)).head?.bind (fun quad => quad.subject.iri?)

/-- Only a deployment announces itself, and not with a subscribe-only credential. -/
def announcer (principal : Principal) : AppResult String := do
  principal.requireAuthenticated
  if principal.isSubscribeOnly then
    .error (AppError.forbidden "a subscribe:artifacts credential cannot announce a deployment")
  if principal.credential = .oidcWorkload ∨ principal.credential = .localToken then return principal.subject
  .error (AppError.forbidden
    "only a deployment may announce itself; this is a person's or an administrator's credential, so use POST /api/v1/instances")

def selfKey (principal : Principal) (input : SelfAnnounceIn) : String := input.instanceKey.getD principal.subject

/-- Which record an announcement is about. A shared credential is asked for its key first. -/
def existingRecord (data : Dataset) (principal : Principal) (input : SelfAnnounceIn) : Option String :=
  let registered := findSelfRegistered data principal.subject (selfKey principal input)
  if principal.softwareIri.isSome then
    registered.or (principal.instanceIri.filter (fun _ => input.instanceKey.isNone))
  else principal.instanceIri.or registered

/-- What a deployment may say about itself; everything absent is left as it stands. -/
def applyAnnouncement (target : InstanceIn) (input : SelfAnnounceIn) : InstanceIn :=
  { target with
    label := input.label.getD target.label
    software := (input.software.map (iriFor server.base .software)).or target.software
    release := (input.release.map (iriFor server.base .release)).or target.release
    endpointUrl := input.endpointUrl.or target.endpointUrl
    endpointDescription := input.endpointDescription.or target.endpointDescription
    healthEndpoint := input.healthEndpoint.or target.healthEndpoint
    availability := input.availability.or target.availability
    jurisdiction := input.jurisdiction.or target.jurisdiction
    description := input.description.or target.description
    capability := input.capability.or target.capability }

/-- Record that we heard from this deployment. -/
def stampSeen (tx : GraphTx) (iri now : String) : GraphTx :=
  (tx.replaceProperty iri (Ns.tar ++ "lastSeenAt") Ns.gLocal).extend
    (describeLocal iri (datetime server.platform Ns.tar "lastSeenAt" now))

/-- A known deployment: merge what it said onto what is held. -/
def reannouncePlan (state : State) (draw : Draw) (principal : Principal) (input : SelfAnnounceIn) (iri : String) :
    AppResult Write := do
  let current ← Instance.loadInstance (server.ctx state draw) iri
  let merged := applyAnnouncement server (Codec.instanceInFrom current) input
  server.platform.enforceWrite state.data
    (Instance.instanceQuads server.platform server.base iri (draw.site 0) merged principal.subject merged.software)
  let software ← resolveSoftwareFor server state.data merged
  checkDeployable server state.data software merged
  let tx := Instance.replaceInstance server.platform server.base iri (draw.site 1) merged principal.subject software
  return ⟨iri, stampSeen server tx iri draw.now⟩

def noDeploymentBound (clientId : String) : AppError :=
  AppError.forbidden ("no deployment is bound to " ++ clientId ++
    ", and no software authorises it to register one. Either an administrator creates the deployment with POST /api/v1/instances setting oidc_client_id to " ++
    clientId ++ ", or a curator issues an auto-registration key with POST /api/v1/software/\x7bid\x7d/tokens (or lists " ++
    clientId ++ " in that software's registration_clients), or the operator enables TAR_OIDC_AUTO_REGISTER_INSTANCES.")

/-- Which software a first announcement registers a deployment of. -/
def authorisedSoftware (principal : Principal) (clientId : String) (claimed : Option String) : AppResult String :=
  match principal.softwareIri, claimed with
  | some bound, some claimed =>
    if iriFor server.base .software claimed ≠ bound then
      .error (refuseSoftware bound (iriFor server.base .software claimed))
    else .ok bound
  | some bound, none => .ok bound
  | none, claimed =>
    if !server.config.oidc.autoRegisterInstances then .error (noDeploymentBound clientId)
    else match claimed with
      | some claimed => .ok (iriFor server.base .software claimed)
      | none => .error (AppError.badRequest
          "a first announcement must say which software this is a deployment of")

/-- The record of a first announcement. Only a credential that is this deployment is bound as its
client. -/
def freshRecord (principal : Principal) (clientId software : String) (input : SelfAnnounceIn) : InstanceIn :=
  let alone := principal.softwareIri.isNone
  { applyAnnouncement server
      { label := input.label.getD clientId
        software := some software
        oidcClientId := if alone then some clientId else none
        oidcIssuer := if alone then principal.issuer else none
        allowedScopes := [scopeAdvertiseProduce, scopeAdvertiseConsume] } input with
    software := some software
    selfRegisteredBy := some principal.subject
    selfRegisteredIssuer := principal.issuer
    instanceKey := some (selfKey principal input) }

def registerPlan (state : State) (draw : Draw) (principal : Principal) (clientId : String) (input : SelfAnnounceIn) :
    AppResult Write := do
  let software ← authorisedSoftware server principal clientId input.software
  let iri := mint server.base .instance_ (draw.site 0)
  let tx ← registration server state (draw.site 1) iri (freshRecord server principal clientId software input)
    principal.subject
  return ⟨iri, stampSeen server tx iri draw.now⟩

def announcePlan (state : State) (draw : Draw) (principal : Principal) (input : SelfAnnounceIn) : AppResult Write := do
  let clientId ← announcer principal
  match existingRecord state.data principal input with
  | some iri => reannouncePlan server state draw principal input iri
  | none => registerPlan server state draw principal clientId input

/-- A running service records what it is. -/
def announceSelf (state : State) (draw : Draw) (principal : Principal) (input : SelfAnnounceIn) : Outcome Instance :=
  settle server state draw (announcePlan server state draw principal input)

end Announce

end ToolArtifactRegistry.Api.Instances
