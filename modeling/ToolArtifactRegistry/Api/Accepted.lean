import ToolArtifactRegistry.Library.Results
import ToolArtifactRegistry.Api.Artifacts
import ToolArtifactRegistry.Api.Software
import ToolArtifactRegistry.Api.Types

/-! What an accepted request was checked to be, and the transaction it commits. -/
namespace ToolArtifactRegistry.Api

open Library.Rdf Library.Serde Library.Results Ids Model Store Rdf Build Auth Domain

namespace Instances

variable {server : Server} {state : State} {draw : Draw} {principal : Principal} {write : Write}

theorem registration_ok {iri actor : String} {input : InstanceIn} {tx : GraphTx}
    (accepted : registration server state draw iri input actor = .ok tx) :
    ∃ software, resolveSoftwareFor server state.data input = .ok software ∧
      tx = ({} : GraphTx).extend (Instance.instanceQuads server.platform server.base iri draw input actor software) := by
  unfold registration at accepted
  simp only [bind_ok, pure_ok] at accepted
  obtain ⟨software, resolved, _, _, _, _, rfl⟩ := accepted
  exact ⟨software, resolved, rfl⟩

theorem createPlan_ok {input : InstanceIn} (accepted : createPlan server state draw principal input = .ok write) :
    ∃ bound software, bindSoftware principal (received server input) = .ok bound ∧
      resolveSoftwareFor server state.data (nameRelease server bound) = .ok software ∧
      write = ⟨mint server.base .instance_ (draw.site 0),
        ({} : GraphTx).extend (Instance.instanceQuads server.platform server.base
          (mint server.base .instance_ (draw.site 0)) (draw.site 1) (nameRelease server bound) principal.subject
          software)⟩ := by
  unfold createPlan at accepted
  simp only [guard_ok, bind_ok, pure_ok] at accepted
  obtain ⟨_, bound, allowed, tx, registered, rfl⟩ := accepted
  obtain ⟨software, resolved, rfl⟩ := registration_ok registered
  exact ⟨bound, software, allowed, resolved, rfl⟩

theorem patchPlan_ok {id : String} {body : Json}
    (accepted : patchPlan server state draw principal id body = .ok write) :
    ∃ current input software,
      isLocal server.base (iriFor server.base .instance_ id) = true ∧
      Instance.loadInstance (server.ctx state draw) (iriFor server.base .instance_ id) = .ok current ∧
      checkOwner principal current = .ok () ∧ patched server current body = .ok input ∧
      resolveSoftwareFor server state.data input = .ok software ∧
      write = ⟨iriFor server.base .instance_ id, Instance.replaceInstance server.platform server.base
        (iriFor server.base .instance_ id) draw input principal.subject software⟩ := by
  unfold patchPlan at accepted
  simp only [guard_ok, bind_ok, pure_ok] at accepted
  obtain ⟨_, here, _, _, _, current, loaded, _, owner, input, merged, software, resolved, _, _, _, _, rfl⟩ := accepted
  refine ⟨current, input, software, ?_, loaded, owner, merged, resolved, rfl⟩
  by_contra foreign
  simp [foreign] at here

theorem tombstonePlan_ok {iri : String} {tx : GraphTx}
    (accepted : tombstonePlan server state draw principal iri = .ok tx) :
    tx = ({} : GraphTx).extend (describeLocal iri (tombstoneStatements server draw principal.subject)) := by
  unfold tombstonePlan at accepted
  simp only [guard_ok, bind_ok, pure_ok] at accepted
  obtain ⟨_, _, _, rfl⟩ := accepted
  rfl

/-- The node a capability declaration rewrites. -/
def capabilityNode (server : Server) (data : Dataset) (draw : Draw) (subject : String) : String :=
  ((Props.fromQuads subject (describeQuads data subject)).iri Ns.tar "hasCapability").getD
    (mint server.base .capability draw)

theorem capabilityPlan_ok {subject : String} {input : CapabilityIn}
    (accepted : capabilityPlan server state draw subject input = .ok write) :
    write = ⟨capabilityNode server state.data draw subject,
      (({} : GraphTx).replaceSubject (capabilityNode server state.data draw subject) Ns.gLocal).extend
        (Software.capabilityQuads server.platform (capabilityNode server state.data draw subject) input ++
          describeLocal subject (link server.platform Ns.tar "hasCapability"
            (capabilityNode server state.data draw subject)))⟩ := by
  unfold capabilityPlan describe at accepted
  simp only [guard_ok, bind_ok, pure_ok] at accepted
  obtain ⟨existing, held, _, _, _, rfl⟩ := accepted
  split at held
  · cases held
    simp [GraphTx.extend, GraphTx.replaceSubject, capabilityNode]
  · cases held

theorem reannouncePlan_ok {input : SelfAnnounceIn} {iri : String}
    (accepted : reannouncePlan server state draw principal input iri = .ok write) :
    ∃ current software, Instance.loadInstance (server.ctx state draw) iri = .ok current ∧
      resolveSoftwareFor server state.data (applyAnnouncement server (Codec.instanceInFrom current) input) =
        .ok software ∧
      write = ⟨iri, stampSeen server (Instance.replaceInstance server.platform server.base iri (draw.site 1)
        (applyAnnouncement server (Codec.instanceInFrom current) input) principal.subject software) iri draw.now⟩ := by
  unfold reannouncePlan at accepted
  simp only [bind_ok, pure_ok] at accepted
  obtain ⟨current, loaded, _, _, software, resolved, _, _, rfl⟩ := accepted
  exact ⟨current, software, loaded, resolved, rfl⟩

theorem registerPlan_ok {input : SelfAnnounceIn} {clientId : String}
    (accepted : registerPlan server state draw principal clientId input = .ok write) :
    ∃ named software, authorisedSoftware server principal clientId input.software = .ok named ∧
      resolveSoftwareFor server state.data (freshRecord server principal clientId named input) = .ok software ∧
      write = ⟨mint server.base .instance_ (draw.site 0), stampSeen server
        (({} : GraphTx).extend (Instance.instanceQuads server.platform server.base
          (mint server.base .instance_ (draw.site 0)) (draw.site 1) (freshRecord server principal clientId named input)
          principal.subject software)) (mint server.base .instance_ (draw.site 0)) draw.now⟩ := by
  unfold registerPlan at accepted
  simp only [bind_ok, pure_ok] at accepted
  obtain ⟨named, authorised, tx, registered, rfl⟩ := accepted
  obtain ⟨software, resolved, rfl⟩ := registration_ok registered
  exact ⟨named, software, authorised, resolved, rfl⟩

theorem announcer_ok {clientId : String} (accepted : announcer principal = .ok clientId) :
    clientId = principal.subject ∧ principal.isSubscribeOnly = false ∧
      (principal.credential = .oidcWorkload ∨ principal.credential = .localToken) := by
  unfold announcer at accepted
  simp only [guard_ok, bind_ok] at accepted
  obtain ⟨_, _, open_, rest⟩ := accepted
  split at rest
  · rename_i deployed
    refine ⟨(Except.ok.inj rest).symm, ?_, deployed⟩
    by_contra only
    simp [only] at open_
  · simp at rest

theorem announcePlan_ok {input : SelfAnnounceIn} (accepted : announcePlan server state draw principal input = .ok write) :
    announcer principal = .ok principal.subject ∧
      ((∃ iri, existingRecord state.data principal input = some iri ∧
          reannouncePlan server state draw principal input iri = .ok write) ∨
        (existingRecord state.data principal input = none ∧
          registerPlan server state draw principal principal.subject input = .ok write)) := by
  unfold announcePlan at accepted
  simp only [bind_ok] at accepted
  obtain ⟨clientId, announced, rest⟩ := accepted
  obtain ⟨rfl, _⟩ := announcer_ok announced
  refine ⟨announced, ?_⟩
  split at rest
  · rename_i iri found
    exact Or.inl ⟨iri, found, rest⟩
  · rename_i absent
    exact Or.inr ⟨absent, rest⟩

end Instances

namespace Software

variable {server : Server} {state : State} {draw : Draw} {principal : Principal} {write : Instances.Write}

theorem createPlan_ok {input : SoftwareIn} (accepted : createPlan server state draw principal input = .ok write) :
    principal.requireCurator = .ok () ∧
      write = ⟨mint server.base .software (draw.site 0), ({} : GraphTx).extend (Domain.Software.softwareQuads
        server.platform server.base (mint server.base .software (draw.site 0)) (draw.site 1) input principal.subject
        none)⟩ := by
  unfold createPlan at accepted
  simp only [bind_ok, pure_ok] at accepted
  obtain ⟨_, curator, _, _, _, _, _, _, rfl⟩ := accepted
  exact ⟨curator, rfl⟩

theorem patchPlan_ok {id : String} {body : Json}
    (accepted : patchPlan server state draw principal id body = .ok write) :
    ∃ current input, principal.requireCurator = .ok () ∧
      isLocal server.base (iriFor server.base .software id) = true ∧
      Domain.Software.loadSoftware (server.ctx state draw) (iriFor server.base .software id) = .ok current ∧
      patched server current body = .ok input ∧
      write = ⟨iriFor server.base .software id, Domain.Software.replaceSoftware server.platform server.base
        (iriFor server.base .software id) draw input principal.subject
        ((Props.fromQuads (iriFor server.base .software id)
          (describeQuads state.data (iriFor server.base .software id))).str Ns.dct "created")⟩ := by
  unfold patchPlan describe at accepted
  simp only [guard_ok, bind_ok, pure_ok] at accepted
  obtain ⟨_, curator, here, existing, held, _, current, loaded, input, merged, _, _, _, _, _, _, rfl⟩ := accepted
  split at held
  · cases held
    refine ⟨current, input, curator, ?_, loaded, merged, rfl⟩
    by_contra foreign
    simp [foreign] at here
  · cases held

theorem createReleasePlan_ok {id : String} {input : ReleaseIn}
    (accepted : createReleasePlan server state draw principal id input = .ok write) :
    principal.requireCurator = .ok () ∧
      write = ⟨mint server.base .release (draw.site 0), ({} : GraphTx).extend (Domain.Software.releaseQuads
        server.platform server.base (mint server.base .release (draw.site 0)) (iriFor server.base .software id)
        (draw.site 1) input principal.subject)⟩ := by
  unfold createReleasePlan at accepted
  simp only [guard_ok, bind_ok, pure_ok] at accepted
  obtain ⟨_, curator, _, _, _, _, _, rfl⟩ := accepted
  exact ⟨curator, rfl⟩

theorem syncPlan_ok {iri : String} {created : Option String} {input : SoftwareIn} {tx : GraphTx}
    (accepted : syncPlan server state draw principal iri created input = .ok tx) :
    tx = Domain.Software.replaceSoftware server.platform server.base iri draw input principal.subject created := by
  unfold syncPlan at accepted
  simp only [bind_ok, pure_ok] at accepted
  obtain ⟨_, _, rfl⟩ := accepted
  rfl

end Software

theorem Artifacts.createPlan_ok {server : Server} {state : State} {draw : Draw} {principal : Principal}
    {input : ArtifactIn} {write : Instances.Write}
    (accepted : Artifacts.createPlan server state draw principal input = .ok write) :
    write = ⟨mint server.base .artifact (draw.site 0), ({} : GraphTx).extend (Artifact.artifactQuads server.platform
      server.base (mint server.base .artifact (draw.site 0)) (draw.site 1) input principal.subject none)⟩ := by
  unfold Artifacts.createPlan at accepted
  simp only [guard_ok, bind_ok, pure_ok] at accepted
  obtain ⟨_, _, _, rfl⟩ := accepted
  rfl

theorem Types.createPlan_ok {server : Server} {state : State} {draw : Draw} {principal : Principal}
    {input : Types.ArtifactTypeIn} {write : Instances.Write}
    (accepted : Types.createPlan server state draw principal input = .ok write) :
    ∃ iri, principal.requireCurator = .ok () ∧ Types.typeIri server state.data draw input = .ok iri ∧
      write = ⟨iri, (({} : GraphTx).replaceSubject iri Ns.gLocal).extend
        (describeLocal iri (Types.typeStatements server input principal.subject))⟩ := by
  unfold Types.createPlan at accepted
  simp only [guard_ok, bind_ok, pure_ok] at accepted
  obtain ⟨_, curator, _, iri, chosen, rfl⟩ := accepted
  exact ⟨iri, curator, chosen, rfl⟩

end ToolArtifactRegistry.Api
