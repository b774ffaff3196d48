import ToolArtifactRegistry.Api.Artifacts
import ToolArtifactRegistry.Api.Openlineage
import ToolArtifactRegistry.Api.Peers
import ToolArtifactRegistry.Api.Software
import ToolArtifactRegistry.Api.Tokens
import ToolArtifactRegistry.Api.Types
import ToolArtifactRegistry.Ops
import ToolArtifactRegistry.Library.Runs

/-! The registry as one system: every request, background write and re-enumeration of the store
takes it from one state to the next. -/
namespace ToolArtifactRegistry.Registry

open Library.Rdf Library.Serde Ids Model Auth Domain Api

inductive Action where
  | createSoftware (input : SoftwareIn)
  | patchSoftware (id : String) (body : Json)
  | deleteSoftware (id : String)
  | declareSoftware (id : String) (input : CapabilityIn)
  | syncSoftware (id : String) (forge : Forge.GitHub)
  | createRelease (id : String) (input : ReleaseIn)
  | deleteRelease (id releaseId : String)
  | createInstance (input : InstanceIn)
  | patchInstance (id : String) (body : Json)
  | deleteInstance (id : String)
  | declareInstance (id : String) (input : CapabilityIn)
  | announceSelf (input : SelfAnnounceIn)
  | mintToken (id : String) (input : MintToken)
  | revokeToken (id tokenId : String)
  | mintSoftwareToken (id : String) (input : MintToken)
  | revokeSoftwareToken (id tokenId : String)
  | advertise (input : AdvertiseIn) (role : Advertise.Role)
  | ingest (event : Json)
  | createArtifact (input : ArtifactIn)
  | createType (input : Types.ArtifactTypeIn)
  | removePeer (id : String)

section

variable (server : Server)

/-- What a request of an authenticated caller leaves. -/
def perform (state : State) (draw : Draw) (principal : Principal) : Action → State
  | .createSoftware input => (Api.Software.create server state draw principal input).state
  | .patchSoftware id body => (Api.Software.patch server state draw principal id body).state
  | .deleteSoftware id => (Api.Software.softDelete server state draw principal id).state
  | .declareSoftware id input => (Api.Software.putCapability server state draw principal id input).state
  | .syncSoftware id forge => (Api.Software.sync server state draw principal id forge).state
  | .createRelease id input => (Api.Software.createRelease server state draw principal id input).state
  | .deleteRelease id releaseId => (Api.Software.deleteRelease server state draw principal id releaseId).state
  | .createInstance input => (Instances.create server state draw principal input).state
  | .patchInstance id body => (Instances.patch server state draw principal id body).state
  | .deleteInstance id => (Instances.softDelete server state draw principal id).state
  | .declareInstance id input => (Instances.putCapability server state draw principal id input).state
  | .announceSelf input => (Instances.announceSelf server state draw principal input).state
  | .mintToken id input => (Tokens.create server state draw principal id input).state
  | .revokeToken id tokenId => (Tokens.revoke server state draw principal id tokenId).state
  | .mintSoftwareToken id input => (Tokens.createForSoftware server state draw principal id input).state
  | .revokeSoftwareToken id tokenId => (Tokens.revokeForSoftware server state draw principal id tokenId).state
  | .advertise input role => (Advertise.advertise server state draw principal input role).state
  | .ingest event => (Openlineage.ingest server state draw principal event).state
  | .createArtifact input => (Artifacts.create server state draw principal input).state
  | .createType input => (Types.create server state draw principal input).state
  | .removePeer id => (Peers.remove server state principal id).state

/-- A request with what it answers, less the value. -/
def handle (state : State) (draw : Draw) (principal : Principal) : Action → Outcome Unit
  | .createSoftware input => (Api.Software.create server state draw principal input).forget
  | .patchSoftware id body => (Api.Software.patch server state draw principal id body).forget
  | .deleteSoftware id => Api.Software.softDelete server state draw principal id
  | .declareSoftware id input => (Api.Software.putCapability server state draw principal id input).forget
  | .syncSoftware id forge => (Api.Software.sync server state draw principal id forge).forget
  | .createRelease id input => (Api.Software.createRelease server state draw principal id input).forget
  | .deleteRelease id releaseId => Api.Software.deleteRelease server state draw principal id releaseId
  | .createInstance input => (Instances.create server state draw principal input).forget
  | .patchInstance id body => (Instances.patch server state draw principal id body).forget
  | .deleteInstance id => Instances.softDelete server state draw principal id
  | .declareInstance id input => (Instances.putCapability server state draw principal id input).forget
  | .announceSelf input => (Instances.announceSelf server state draw principal input).forget
  | .mintToken id input => (Tokens.create server state draw principal id input).forget
  | .revokeToken id tokenId => Tokens.revoke server state draw principal id tokenId
  | .mintSoftwareToken id input => (Tokens.createForSoftware server state draw principal id input).forget
  | .revokeSoftwareToken id tokenId => Tokens.revokeForSoftware server state draw principal id tokenId
  | .advertise input role => (Advertise.advertise server state draw principal input role).forget
  | .ingest event => (Openlineage.ingest server state draw principal event).forget
  | .createArtifact input => (Artifacts.create server state draw principal input).forget
  | .createType input => (Types.create server state draw principal input).forget
  | .removePeer id => Peers.remove server state principal id

theorem handle_state (state : State) (draw : Draw) (principal : Principal) (action : Action) :
    (handle server state draw principal action).state = perform server state draw principal action := by
  cases action <;> rfl

end

inductive Event where
  | request (credential : Option String) (draw : Draw) (action : Action)
  | health (now iri : String) (verdict : Health.Verdict)
  | fetchStub (now iri : String) (answer : Peers.Answer)
  | knowPeer (peer : PeerRecord)
  | reindex (data : Dataset)

variable (server : Server)

/-- A request without a valid credential changes nothing. -/
def requested (state : State) (credential : Option String) (draw : Draw) (action : Action) : State :=
  match principalOf server state draw.now credential with
  | .ok principal => perform server state draw principal action
  | .error _ => state

def step (state : State) : Event → State
  | .request credential draw action => requested server state credential draw action
  | .health now iri verdict => (Health.record server state now iri verdict).state
  | .fetchStub now iri answer =>
    if Ids.isLocal server.base iri then state else (Peers.fetchStub server state now iri answer).state
  | .knowPeer peer => { state with ops := state.ops.upsertPeer peer }
  -- the same quads, enumerated in another order
  | .reindex data => if data.quads.isPerm state.data.quads then { state with data } else state

/-- The states a registry can be in, from nothing registered. -/
def Reachable (state : State) : Prop := ∃ events, Library.Runs.run (step server) State.empty events = state

end ToolArtifactRegistry.Registry
