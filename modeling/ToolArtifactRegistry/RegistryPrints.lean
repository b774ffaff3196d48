import ToolArtifactRegistry.Api.AdvertisePrints
import ToolArtifactRegistry.Registry

/-! What each step of the registry may do to its local graph. -/
namespace ToolArtifactRegistry.Registry

open Library.Rdf Ids Model Store Rdf Build Auth Domain Api

variable (server : Server)

section

variable (state : State) (draw : Draw) (principal : Principal)

/-- The withdrawal of a record, when it is there. -/
def withdrawalPrint (iri : String) : Print :=
  accepted (Instances.tombstonePlan server state draw principal iri) (Instances.tombstonePrint iri)

def actionPrint : Action → Print
  | .createSoftware input => Api.Software.createPrint server state draw principal input
  | .patchSoftware id body => Api.Software.patchPrint server state draw principal id body
  | .deleteSoftware id =>
    accepted principal.requireCurator (withdrawalPrint server state draw principal (iriFor server.base .software id))
  | .declareSoftware id input =>
    accepted principal.requireCurator
      (Instances.capabilityPrint server state draw (iriFor server.base .software id) input)
  | .syncSoftware id forge => Api.Software.syncPrint server state draw principal id forge
  | .createRelease id input => Api.Software.createReleasePrint server state draw principal id input
  | .deleteRelease id releaseId =>
    accepted (Api.Software.deleteReleasePlan server state principal id releaseId)
      (withdrawalPrint server state draw principal (iriFor server.base .release releaseId))
  | .createInstance input => Instances.createPrint server state draw principal input
  | .patchInstance id body => Instances.patchPrint server state draw principal id body
  | .deleteInstance id =>
    accepted principal.requireCurator (withdrawalPrint server state draw principal (iriFor server.base .instance_ id))
  | .declareInstance id input =>
    accepted (Instances.mayDeclare principal (iriFor server.base .instance_ id))
      (Instances.capabilityPrint server state draw (iriFor server.base .instance_ id) input)
  | .announceSelf input => Instances.announcePrint server state draw principal input
  | .advertise input role => Advertise.print server state draw principal input role
  | .ingest event => Openlineage.print server state draw principal event
  | .createArtifact input => Artifacts.createPrint server state draw principal input
  | .createType input => Types.createPrint server state draw principal input
  | _ => {}

theorem perform_edits (action : Action) :
    Edits state.data (perform server state draw principal action).data (actionPrint server state draw principal action) := by
  have token (plan : AppResult (TokenRow × Ops)) : (Tokens.settle state draw plan).state.data = state.data := by
    cases plan <;> rfl
  have revoked (tokenId : String) (plan : AppResult Unit) :
      (Tokens.revokeIn state draw tokenId plan).state.data = state.data := by
    cases plan <;> rfl
  cases action with
  | createSoftware input => exact Api.Software.create_edits input
  | patchSoftware id body => exact Api.Software.patch_edits id body
  | deleteSoftware id => exact guarded_edits (fun _ => Instances.tombstone_edits _)
  | declareSoftware id input => exact guarded_edits (fun _ => Instances.capability_edits _ input _)
  | syncSoftware id forge => exact Api.Software.sync_edits id forge
  | createRelease id input => exact Api.Software.createRelease_edits id input
  | deleteRelease id releaseId => exact guarded_edits (fun _ => Instances.tombstone_edits _)
  | createInstance input => exact Instances.create_edits input
  | patchInstance id body => exact Instances.patch_edits id body
  | deleteInstance id => exact guarded_edits (fun _ => Instances.tombstone_edits _)
  | declareInstance id input => exact guarded_edits (fun _ => Instances.capability_edits _ input _)
  | announceSelf input => exact Instances.announce_edits input
  | mintToken id input =>
    simp only [perform, Tokens.create, token]
    exact Edits.refl _ _
  | revokeToken id tokenId =>
    simp only [perform, Tokens.revoke, revoked]
    exact Edits.refl _ _
  | mintSoftwareToken id input =>
    simp only [perform, Tokens.createForSoftware, token]
    exact Edits.refl _ _
  | revokeSoftwareToken id tokenId =>
    simp only [perform, Tokens.revokeForSoftware, revoked]
    exact Edits.refl _ _
  | advertise input role => exact (Advertise.advertise_wrote input role).1
  | ingest event => exact (Openlineage.ingest_wrote event).1
  | createArtifact input => exact Artifacts.create_edits input
  | createType input => exact Types.create_edits input
  | removePeer id => exact Peers.remove_edits id

end

/-- The print of an event: that of the caller's request, or of a health verdict. What a peer says
leaves none. -/
def print (state : State) : Event → Print
  | .request credential draw action =>
    match principalOf server state draw.now credential with
    | .ok principal => actionPrint server state draw principal action
    | .error _ => {}
  | .health _ iri _ => Health.print iri
  | _ => {}

theorem step_edits (state : State) (event : Event) :
    Edits state.data (step server state event).data (print server state event) := by
  cases event with
  | request credential draw action =>
    simp only [step, requested, print]
    cases principalOf server state draw.now credential with
    | error e => exact Edits.refl _ _
    | ok principal => exact perform_edits server state draw principal action
  | health now iri verdict => exact Health.record_edits now iri verdict
  | fetchStub now iri answer =>
    simp only [step]
    split
    · exact Edits.refl _ _
    · exact Peers.fetchStub_edits now iri answer
  | knowPeer peer => exact Edits.refl _ _
  | reindex data =>
    simp only [step]
    split
    · rename_i reordered
      have same : ∀ quad, quad ∈ data ↔ quad ∈ state.data := fun quad => (List.isPerm_iff.1 reordered).mem_iff
      exact ⟨fun quad held _ _ => (same quad).2 held, fun quad held _ => Or.inl ((same quad).1 held)⟩
    · exact Edits.refl _ _

section Vocabulary

/-- The vocabularies a request may write in. -/
def vocabularies : Action → List (List String)
  | .createSoftware _ => [Footprint.softwareVocabulary, Footprint.supportVocabulary]
  | .patchSoftware _ _ => [Footprint.softwareVocabulary, Footprint.supportVocabulary]
  | .syncSoftware _ _ => [Footprint.softwareVocabulary, Footprint.supportVocabulary,
      Api.Software.bookkeepingVocabulary, Footprint.releaseVocabulary]
  | .createRelease _ _ => [Footprint.releaseVocabulary, Footprint.supportVocabulary]
  | .deleteSoftware _ => [Instances.tombstoneVocabulary]
  | .deleteRelease _ _ => [Instances.tombstoneVocabulary]
  | .deleteInstance _ => [Instances.tombstoneVocabulary]
  | .declareSoftware _ _ => [Footprint.capabilityVocabulary, [Ns.t Ns.tar "hasCapability"]]
  | .declareInstance _ _ => [Footprint.capabilityVocabulary, [Ns.t Ns.tar "hasCapability"]]
  | .createInstance _ => [Footprint.instanceVocabulary, Footprint.supportVocabulary]
  | .patchInstance _ _ => [Footprint.instanceVocabulary, Footprint.supportVocabulary]
  | .announceSelf _ => [Footprint.instanceVocabulary, Footprint.supportVocabulary, [Ns.t Ns.tar "lastSeenAt"]]
  | .advertise _ _ => [Advertise.runVocabulary, Footprint.supportVocabulary, Footprint.artifactVocabulary,
      [Ns.t Ns.prov "wasGeneratedBy"]]
  | .ingest _ => [Advertise.runVocabulary, Footprint.supportVocabulary, Footprint.artifactVocabulary,
      [Ns.t Ns.prov "wasGeneratedBy"]]
  | .createArtifact _ => [Footprint.artifactVocabulary, Footprint.supportVocabulary]
  | .createType _ => [Types.typeVocabulary]
  | _ => []

/-- A print in these vocabularies. -/
def Uses (known : List (List String)) (print : Print) : Prop := ∀ block ∈ print.blocks, block.vocabulary ∈ known

theorem uses_none (known : List (List String)) : Uses known {} := by simp [Uses]

theorem uses_record (replaced : List String) {iri : String} {vocabulary : List String} {nodes : List Node}
    {known : List (List String)} (own : vocabulary ∈ known) (support : Footprint.supportVocabulary ∈ known) :
    Uses known { replaced, blocks := recordBlocks iri vocabulary nodes } := by
  simp [Uses, recordBlocks, own, support]

theorem Uses.append {known : List (List String)} {first second : Print} (left : Uses known first)
    (right : Uses known second) : Uses known (first.append second) := by
  intro block mem
  exact (List.mem_append.1 mem).elim (left block) (right block)

theorem uses_accepted {α : Type} {plan : AppResult α} {known : List (List String)} {print : Print}
    (uses : Uses known print) : Uses known (accepted plan print) := by
  unfold accepted
  split
  · exact uses
  · exact uses_none known

theorem entries_uses {known : List (List String)} (role : Advertise.Role) (entries : List Advertise.Entry)
    (own : Footprint.artifactVocabulary ∈ known) (support : Footprint.supportVocabulary ∈ known)
    (linked : [Ns.t Ns.prov "wasGeneratedBy"] ∈ known) : Uses known (Advertise.entriesPrint server role entries) := by
  intro block mem
  obtain ⟨entry, _, inEntry⟩ := List.mem_flatMap.1 mem
  unfold Advertise.entryBlocks at inEntry
  split at inEntry
  · exact uses_record [] own support block inEntry
  · split at inEntry
    · rw [List.mem_singleton.1 inEntry]
      exact linked
    · simp at inEntry

theorem run_uses {known : List (List String)} (runIri : String) (association : Node)
    (own : Advertise.runVocabulary ∈ known) (support : Footprint.supportVocabulary ∈ known) :
    Uses known (Advertise.runPrint runIri association) := by
  simp [Uses, Advertise.runPrint, recordBlocks, own, support]

theorem releases_uses {known : List (List String)} (draw : Draw) (place : Nat) (releases : List ReleaseIn)
    (own : Footprint.releaseVocabulary ∈ known) (support : Footprint.supportVocabulary ∈ known) :
    Uses known (Api.Software.releasesPrint server draw place releases) := by
  intro block mem
  obtain ⟨entry, _, inEntry⟩ := List.mem_flatMap.1 mem
  exact uses_record [] own support block inEntry

theorem action_uses (state : State) (draw : Draw) (principal : Principal) (action : Action) :
    Uses (vocabularies action) (actionPrint server state draw principal action) := by
  cases action with
  | createSoftware input => exact uses_accepted (uses_record _ (by simp [vocabularies]) (by simp [vocabularies]))
  | patchSoftware id body =>
    apply uses_accepted
    split
    · exact uses_record _ (by simp [vocabularies]) (by simp [vocabularies])
    · exact uses_none _
  | syncSoftware id forge =>
    apply uses_accepted
    split
    · exact uses_none _
    · have status (iri : String) : Uses (vocabularies (.syncSoftware id forge)) (Api.Software.statusPrint iri) := by
        simp [Uses, Api.Software.statusPrint, vocabularies]
      split
      · exact status _
      · refine Uses.append (Uses.append (Uses.append ?_ (status _)) ?_) (status _)
        · exact uses_record _ (by simp [vocabularies]) (by simp [vocabularies])
        · exact releases_uses server _ _ _ (by simp [vocabularies]) (by simp [vocabularies])
  | createRelease id input => exact uses_accepted (uses_record _ (by simp [vocabularies]) (by simp [vocabularies]))
  | createInstance input => exact uses_accepted (uses_record _ (by simp [vocabularies]) (by simp [vocabularies]))
  | patchInstance id body =>
    apply uses_accepted
    split
    · exact uses_record _ (by simp [vocabularies]) (by simp [vocabularies])
    · exact uses_none _
  | announceSelf input =>
    have seen (iri : String) : Uses (vocabularies (.announceSelf input)) (Instances.seenPrint iri) := by
      simp [Uses, Instances.seenPrint, vocabularies]
    apply uses_accepted
    split
    · unfold Instances.reannouncePrint
      split
      · exact Uses.append (uses_record _ (by simp [vocabularies]) (by simp [vocabularies])) (seen _)
      · exact uses_none _
    · exact Uses.append (uses_record _ (by simp [vocabularies]) (by simp [vocabularies])) (seen _)
  | deleteSoftware id =>
    exact uses_accepted (uses_accepted (by simp [Uses, Instances.tombstonePrint, vocabularies]))
  | deleteRelease id releaseId =>
    exact uses_accepted (uses_accepted (by simp [Uses, Instances.tombstonePrint, vocabularies]))
  | deleteInstance id =>
    exact uses_accepted (uses_accepted (by simp [Uses, Instances.tombstonePrint, vocabularies]))
  | declareSoftware id input => exact uses_accepted (uses_accepted (by simp [Uses, vocabularies]))
  | declareInstance id input => exact uses_accepted (uses_accepted (by simp [Uses, vocabularies]))
  | advertise input role =>
    simp only [actionPrint, Advertise.print]
    split
    · exact uses_none _
    · exact Uses.append (run_uses _ _ (by simp [vocabularies]) (by simp [vocabularies]))
        (entries_uses server _ _ (by simp [vocabularies]) (by simp [vocabularies]) (by simp [vocabularies]))
  | ingest event =>
    simp only [actionPrint, Openlineage.print]
    split
    · exact uses_none _
    · exact Uses.append (run_uses _ _ (by simp [vocabularies]) (by simp [vocabularies]))
        (Uses.append
          (entries_uses server _ _ (by simp [vocabularies]) (by simp [vocabularies]) (by simp [vocabularies]))
          (entries_uses server _ _ (by simp [vocabularies]) (by simp [vocabularies]) (by simp [vocabularies])))
  | createArtifact input => exact uses_accepted (uses_record _ (by simp [vocabularies]) (by simp [vocabularies]))
  | createType input =>
    apply uses_accepted
    split
    · simp [Uses, vocabularies]
    · exact uses_none _
  | mintToken | revokeToken | mintSoftwareToken | revokeSoftwareToken | removePeer => exact uses_none _

/-- A predicate outside a request's vocabularies is not said by it. -/
theorem Uses.silent {known : List (List String)} {print : Print} {quad : Quad} (uses : Uses known print)
    (foreign : ∀ vocabulary ∈ known, quad.predicate ∉ vocabulary) : ¬Spoken print.blocks quad := by
  rintro ⟨_, block, mem, _, predicate⟩
  exact foreign _ (uses block mem) predicate

end Vocabulary

end ToolArtifactRegistry.Registry
