import ToolArtifactRegistry.Api.Accepted
import ToolArtifactRegistry.Api.Peers
import ToolArtifactRegistry.Edits
import ToolArtifactRegistry.Ops

/-! The print of each registration, change and withdrawal of a record on the local graph. -/
namespace ToolArtifactRegistry.Api

open Library.Rdf Library.Serde Ids Model Store Rdf Build Auth Domain

/-- The print of a request whose plan is accepted; a refused one leaves none. -/
def accepted {α : Type} (plan : AppResult α) (print : Print) : Print :=
  match plan with
  | .ok _ => print
  | .error _ => {}

theorem commit_edits {α : Type} {server : Server} {state : State} {tx : GraphTx} {answer : State → AppResult α}
    {print : Print} (edits : Edits state.data (effect state.data tx) print) :
    Edits state.data (Outcome.commit server state tx answer).state.data print := by
  rcases Outcome.commit_cases server state tx answer with same | changed
  · rw [same]
    exact Edits.refl _ _
  · rw [changed]
    exact edits

theorem planned_edits {α β : Type} {server : Server} {state : State} {plan : AppResult β} {answer : β → State → AppResult α}
    {print : Print} (tx : β → GraphTx)
    (each : ∀ value, plan = .ok value → Edits state.data (effect state.data (tx value)) print) :
    Edits state.data
      (Outcome.planned state plan (fun value => Outcome.commit server state (tx value) (answer value))).state.data
      (accepted plan print) := by
  cases planned : plan with
  | error e => exact Edits.refl _ _
  | ok value => exact commit_edits (each value planned)

/-- A guard before an outcome. -/
theorem guarded_edits {α β : Type} {state : State} {guard : AppResult β} {proceed : β → Outcome α} {print : Print}
    (each : ∀ value, Edits state.data (proceed value).state.data print) :
    Edits state.data (Outcome.planned state guard proceed).state.data (accepted guard print) := by
  cases guard with
  | error e => exact Edits.refl _ _
  | ok value => exact each value

theorem andThen_edits {α β : Type} {data : Dataset} {first : Outcome α} {next : State → α → Outcome β}
    {earlier later : Print} (before : Edits data first.state.data earlier)
    (after : ∀ value, Edits first.state.data (next first.state value).state.data later) (adds : later.replaced = []) :
    Edits data (first.andThen next).state.data (earlier.append later) := by
  unfold Outcome.andThen
  split
  · rename_i value _
    exact before.trans (after value) adds
  · exact before.trans (Edits.refl _ _) adds

namespace Instances

variable (server : Server)

/-- A write of the whole record, in place of the one under its IRI. -/
def replacePrint (iri : String) (draw : Draw) (input : InstanceIn) : Print where
  replaced := [iri]
  blocks := recordBlocks iri Footprint.instanceVocabulary (Footprint.instanceNodes server.base draw input)

def freshPrint (iri : String) (draw : Draw) (input : InstanceIn) : Print where
  blocks := recordBlocks iri Footprint.instanceVocabulary (Footprint.instanceNodes server.base draw input)

def createPrint (state : State) (draw : Draw) (principal : Principal) (input : InstanceIn) : Print :=
  accepted (createPlan server state draw principal input)
    (freshPrint server (mint server.base .instance_ (draw.site 0)) (draw.site 1) input)

def patchPrint (state : State) (draw : Draw) (principal : Principal) (id : String) (body : Json) : Print :=
  accepted (patchPlan server state draw principal id body)
    (match (Instance.loadInstance (server.ctx state draw) (iriFor server.base .instance_ id)).bind
        (fun current => patched server current body) with
      | .ok input => replacePrint server (iriFor server.base .instance_ id) draw input
      | .error _ => {})

def tombstoneVocabulary : List String :=
  [Ns.t Ns.tar "tombstoned", Ns.t Ns.tar "tombstonedAt", Ns.t Ns.adms "status", Ns.t Ns.prov "wasAttributedTo"]

def tombstonePrint (iri : String) : Print := { blocks := [⟨[.named iri], tombstoneVocabulary⟩] }

def capabilityPrint (state : State) (draw : Draw) (subject : String) (input : CapabilityIn) : Print :=
  accepted (capabilityPlan server state draw subject input)
    { replaced := [capabilityNode server state.data draw subject]
      blocks := [⟨[.named (capabilityNode server state.data draw subject)], Footprint.capabilityVocabulary⟩,
        ⟨[.named subject], [Ns.t Ns.tar "hasCapability"]⟩] }

/-- The time of the last contact. -/
def seenPrint (iri : String) : Print where
  reset := [(iri, Ns.t Ns.tar "lastSeenAt")]
  blocks := [⟨[.named iri], [Ns.t Ns.tar "lastSeenAt"]⟩]

def reannouncePrint (state : State) (draw : Draw) (input : SelfAnnounceIn) (iri : String) : Print :=
  match Instance.loadInstance (server.ctx state draw) iri with
  | .ok current => (replacePrint server iri (draw.site 1)
      (applyAnnouncement server (Codec.instanceInFrom current) input)).append (seenPrint iri)
  | .error _ => {}

def registerPrint (draw : Draw) (input : SelfAnnounceIn) : Print :=
  (freshPrint server (mint server.base .instance_ (draw.site 0)) (draw.site 1)
    { label := "", capability := input.capability }).append (seenPrint (mint server.base .instance_ (draw.site 0)))

def announcePrint (state : State) (draw : Draw) (principal : Principal) (input : SelfAnnounceIn) : Print :=
  accepted (announcePlan server state draw principal input)
    (match existingRecord state.data principal input with
      | some iri => reannouncePrint server state draw input iri
      | none => registerPrint server draw input)

variable {server} {state : State} {draw : Draw} {principal : Principal}

theorem instanceQuads_spoken {iri : String} {input : InstanceIn} {actor : String} {software : Option String} {quad : Quad}
    (mem : quad ∈ Instance.instanceQuads server.platform server.base iri draw input actor software) :
    Spoken (recordBlocks iri Footprint.instanceVocabulary (Footprint.instanceNodes server.base draw input)) quad :=
  spoken_of_written (Footprint.mem_instanceQuads server.platform server.base mem)
    (Footprint.instance_speaks server.platform server.base draw input actor software)

/-- A binding or a named release changes no node a record is written with. -/
theorem bindSoftware_nodes {input bound : InstanceIn} (base : String) (draw : Draw)
    (allowed : bindSoftware principal (received server input) = .ok bound) :
    Footprint.instanceNodes base draw (nameRelease server bound) = Footprint.instanceNodes base draw input := by
  have same : bound.operator = input.operator ∧ bound.capability = input.capability := by
    unfold bindSoftware at allowed
    split at allowed
    · cases allowed
      exact ⟨rfl, rfl⟩
    · split at allowed
      · split at allowed
        · cases allowed
        · cases allowed
          exact ⟨rfl, rfl⟩
      · cases allowed
        exact ⟨rfl, rfl⟩
  simp [Footprint.instanceNodes, nameRelease, same]

theorem create_edits (input : InstanceIn) : Edits state.data (create server state draw principal input).state.data
    (createPrint server state draw principal input) := by
  refine planned_edits (fun write : Write => write.tx) ?_
  intro write accepted
  obtain ⟨bound, software, allowed, _, rfl⟩ := createPlan_ok accepted
  apply Edits.of_extend
  intro quad mem
  have spoken := instanceQuads_spoken mem
  rw [bindSoftware_nodes _ _ allowed] at spoken
  exact spoken

theorem patch_edits (id : String) (body : Json) :
    Edits state.data (patch server state draw principal id body).state.data
      (patchPrint server state draw principal id body) := by
  refine planned_edits (fun write : Write => write.tx) ?_
  intro write accepted
  obtain ⟨current, input, software, _, loaded, _, merged, _, rfl⟩ := patchPlan_ok accepted
  have found : (Instance.loadInstance (server.ctx state draw) (iriFor server.base .instance_ id)).bind
      (fun current => patched server current body) = .ok input := by simp [loaded, Except.bind, merged]
  rw [found]
  exact Edits.of_replace (by simp [replacePrint]) (fun quad mem => instanceQuads_spoken mem)

theorem tombstone_speaks (actor : String) :
    Speaks tombstoneVocabulary (tombstoneStatements server draw actor) := by
  unfold tombstoneStatements
  simp only [speaks_append]
  and_intros
  · exact speaks_boolean _ (by simp [tombstoneVocabulary])
  · exact speaks_datetime _ _ (by simp [tombstoneVocabulary])
  · exact speaks_link _ _ (by simp [tombstoneVocabulary])
  · exact speaks_link _ _ (by simp [tombstoneVocabulary])

theorem tombstone_edits (iri : String) :
    Edits state.data (tombstone server state draw principal iri).state.data
      (accepted (tombstonePlan server state draw principal iri) (tombstonePrint iri)) := by
  refine planned_edits (fun tx => tx) ?_
  intro tx accepted
  rw [tombstonePlan_ok accepted]
  exact Edits.of_extend (fun quad mem => spoken_of_local mem (tombstone_speaks principal.subject))

theorem capability_edits (subject : String) (input : CapabilityIn) (layer : String) :
    Edits state.data (putCapabilityOn server state draw subject input layer).state.data
      (capabilityPrint server state draw subject input) := by
  refine planned_edits (fun write : Write => write.tx) ?_
  intro write accepted
  rw [capabilityPlan_ok accepted]
  refine Edits.of_replace (by simp) ?_
  intro quad mem
  rcases List.mem_append.1 mem with own | linked
  · refine (spoken_of_local own (Footprint.capability_speaks server.platform input)).mono ?_
    simp
  · refine (spoken_of_local linked (speaks_link server.platform _ (List.mem_singleton.2 rfl))).mono ?_
    simp

/-- A write stamped with the time of contact adds the print of the stamp. -/
theorem stampSeen_edits {data : Dataset} {tx : GraphTx} {iri now : String} {print : Print} (graphs : tx.clearGraphs = [])
    (properties : tx.deleteProperties = [])
    (subjects : ∀ target ∈ tx.deleteSubjects, target.1 ∈ print.replaced)
    (inserted : ∀ quad ∈ tx.insert, Spoken print.blocks quad) :
    Edits data (effect data (stampSeen server tx iri now)) (print.append (seenPrint iri)) := by
  apply Edits.of_effect
  · simp [stampSeen, GraphTx.extend, GraphTx.replaceProperty, graphs]
  · intro target mem _
    exact List.mem_append_left _ (subjects target mem)
  · intro target mem _
    simp only [stampSeen, GraphTx.extend, GraphTx.replaceProperty, properties, List.nil_append,
      List.mem_singleton] at mem
    rw [mem]
    simp [Print.append, seenPrint, Ns.t]
  · intro quad mem _
    rcases List.mem_append.1 mem with own | stamp
    · exact (inserted quad own).mono (fun block => List.mem_append_left _)
    · refine (spoken_of_local stamp (speaks_datetime server.platform _ (List.mem_singleton.2 rfl))).mono ?_
      intro block mem
      exact List.mem_append_right _ mem

/-- What a stamped write inserts, apart from the stamp. -/
theorem stamped_insert {tx : GraphTx} {target now : String} {quad : Quad}
    (mem : quad ∈ (stampSeen server tx target now).insert) (other : quad.predicate ≠ Ns.t Ns.tar "lastSeenAt") :
    quad ∈ tx.insert := by
  rcases List.mem_append.1 mem with own | stamp
  · exact own
  · exact absurd (only_datetime server.platform Ns.tar "lastSeenAt" now _ (mem_finish.1 stamp).2.2) other

theorem announce_edits (input : SelfAnnounceIn) :
    Edits state.data (announceSelf server state draw principal input).state.data
      (announcePrint server state draw principal input) := by
  refine planned_edits (fun write : Write => write.tx) ?_
  intro write accepted
  obtain ⟨_, ⟨iri, found, again⟩ | ⟨absent, first⟩⟩ := announcePlan_ok accepted
  · obtain ⟨current, software, loaded, _, rfl⟩ := reannouncePlan_ok again
    simp only [found, reannouncePrint, loaded]
    apply stampSeen_edits
    · simp [Instance.replaceInstance, GraphTx.extend, GraphTx.replaceSubject]
    · simp [Instance.replaceInstance, GraphTx.extend, GraphTx.replaceSubject]
    · simp [Instance.replaceInstance, GraphTx.extend, GraphTx.replaceSubject, replacePrint]
    · intro quad mem
      exact instanceQuads_spoken (by simpa [Instance.replaceInstance, GraphTx.extend, GraphTx.replaceSubject] using mem)
  · obtain ⟨named, software, _, _, rfl⟩ := registerPlan_ok first
    simp only [absent, registerPrint]
    apply stampSeen_edits
    · simp [GraphTx.extend]
    · simp [GraphTx.extend]
    · simp [GraphTx.extend]
    · intro quad mem
      have own : quad ∈ Instance.instanceQuads server.platform server.base (mint server.base .instance_ (draw.site 0))
          (draw.site 1) (freshRecord server principal principal.subject named input) principal.subject software := by
        simpa [GraphTx.extend] using mem
      have spoken := instanceQuads_spoken own
      simpa [freshPrint, Footprint.instanceNodes, freshRecord, applyAnnouncement, Footprint.agentNodes] using spoken

end Instances

namespace Software

variable (server : Server)

def recordPrint (replaced : List String) (iri : String) (draw : Draw) (input : SoftwareIn) : Print where
  replaced := replaced
  blocks := recordBlocks iri Footprint.softwareVocabulary (Footprint.softwareNodes server.base iri draw input)

def createPrint (state : State) (draw : Draw) (principal : Principal) (input : SoftwareIn) : Print :=
  accepted (createPlan server state draw principal input)
    (recordPrint server [] (mint server.base .software (draw.site 0)) (draw.site 1) input)

def patchPrint (state : State) (draw : Draw) (principal : Principal) (id : String) (body : Json) : Print :=
  accepted (patchPlan server state draw principal id body)
    (match (Domain.Software.loadSoftware (server.ctx state draw) (iriFor server.base .software id)).bind
        (fun current => patched server current body) with
      | .ok input => recordPrint server [iriFor server.base .software id] (iriFor server.base .software id) draw input
      | .error _ => {})

def releaseBlocks (iri : String) (draw : Draw) (input : ReleaseIn) : List Block :=
  recordBlocks iri Footprint.releaseVocabulary (Footprint.releaseNodes server.base draw input)

def createReleasePrint (state : State) (draw : Draw) (principal : Principal) (id : String) (input : ReleaseIn) : Print :=
  accepted (createReleasePlan server state draw principal id input)
    { blocks := releaseBlocks server (mint server.base .release (draw.site 0)) (draw.site 1) input }

def bookkeepingVocabulary : List String := bookkeeping.map (Ns.t Ns.tar)

/-- The outcome of a synchronisation, on the node of its configuration. -/
def statusPrint (iri : String) : Print where
  reset := bookkeepingVocabulary.map (fun predicate => (Domain.Software.syncIri iri, predicate))
  blocks := [⟨[.named (Domain.Software.syncIri iri)], bookkeepingVocabulary⟩]

/-- The releases a repository reports, each under the IRI minted for it. -/
def releasesPrint (draw : Draw) (place : Nat) (releases : List ReleaseIn) : Print where
  blocks := (releases.zipIdx place).flatMap (fun entry =>
    releaseBlocks server (mint server.base .release ((draw.site entry.2).site 0)) ((draw.site entry.2).site 1) entry.1)

def syncedPrint (draw : Draw) (iri : String) (cfg : SyncStatus) (synced : Forge.Syncing) : Print :=
  (((recordPrint server [iri] iri (draw.site 0) { synced.input with sync := some (syncInOf cfg) }).append
    (statusPrint iri)).append (releasesPrint server (draw.site 1) 0 synced.out.releases)).append (statusPrint iri)

def syncPrint (state : State) (draw : Draw) (principal : Principal) (id : String) (forge : Forge.GitHub) : Print :=
  let iri := iriFor server.base .software id
  accepted principal.requireCurator
    (match syncable server state draw iri with
      | .error _ => {}
      | .ok (existing, cfg, _) =>
        match Forge.syncInto server.platform forge cfg.repo cfg.fields (Codec.softwareInFrom existing) with
        | .error _ => statusPrint iri
        | .ok synced => syncedPrint server draw iri cfg synced)

variable {server} {state : State} {draw : Draw} {principal : Principal}

theorem softwareQuads_spoken {iri : String} {input : SoftwareIn} {actor : String} {created : Option String} {quad : Quad}
    (mem : quad ∈ Domain.Software.softwareQuads server.platform server.base iri draw input actor created) :
    Spoken (recordBlocks iri Footprint.softwareVocabulary (Footprint.softwareNodes server.base iri draw input)) quad :=
  spoken_of_written (Footprint.mem_softwareQuads server.platform server.base mem)
    (Footprint.software_speaks server.platform server.base iri draw input actor created)

theorem releaseQuads_spoken {iri softwareIri : String} {input : ReleaseIn} {actor : String} {quad : Quad}
    (mem : quad ∈ Domain.Software.releaseQuads server.platform server.base iri softwareIri draw input actor) :
    Spoken (releaseBlocks server iri draw input) quad :=
  spoken_of_written (Footprint.mem_releaseQuads server.platform server.base mem)
    (Footprint.release_speaks server.platform server.base softwareIri draw input actor)

theorem create_edits (input : SoftwareIn) : Edits state.data (create server state draw principal input).state.data
    (createPrint server state draw principal input) := by
  refine planned_edits (fun write : Instances.Write => write.tx) ?_
  intro write accepted
  obtain ⟨_, rfl⟩ := createPlan_ok accepted
  exact Edits.of_extend (fun quad mem => softwareQuads_spoken mem)

theorem patch_edits (id : String) (body : Json) :
    Edits state.data (patch server state draw principal id body).state.data
      (patchPrint server state draw principal id body) := by
  refine planned_edits (fun write : Instances.Write => write.tx) ?_
  intro write accepted
  obtain ⟨current, input, _, _, loaded, merged, rfl⟩ := patchPlan_ok accepted
  have found : (Domain.Software.loadSoftware (server.ctx state draw) (iriFor server.base .software id)).bind
      (fun current => patched server current body) = .ok input := by simp [loaded, Except.bind, merged]
  rw [found]
  exact Edits.of_replace (by simp [recordPrint]) (fun quad mem => softwareQuads_spoken mem)

theorem createRelease_edits (id : String) (input : ReleaseIn) :
    Edits state.data (createRelease server state draw principal id input).state.data
      (createReleasePrint server state draw principal id input) := by
  refine planned_edits (fun write : Instances.Write => write.tx) ?_
  intro write accepted
  obtain ⟨_, rfl⟩ := createReleasePlan_ok accepted
  exact Edits.of_extend (fun quad mem => releaseQuads_spoken mem)

theorem syncStatus_speaks (status : SyncStatus) :
    Speaks bookkeepingVocabulary (syncStatusStatements server status) := by
  unfold syncStatusStatements
  simp only [speaks_append]
  and_intros
  · exact speaks_optDatetime _ _ (by simp [bookkeepingVocabulary, bookkeeping])
  · exact speaks_text _ (by simp [bookkeepingVocabulary, bookkeeping])
  · exact speaks_optText _ (by simp [bookkeepingVocabulary, bookkeeping])
  · exact speaks_texts _ (by simp [bookkeepingVocabulary, bookkeeping])

theorem writeSyncStatus_edits (iri : String) (status : SyncStatus) :
    Edits state.data (writeSyncStatus server state iri status).state.data (statusPrint iri) := by
  apply commit_edits
  apply Edits.of_effect
  · simp [syncStatusTx, bookkeeping, GraphTx.extend, GraphTx.replaceProperty]
  · simp [syncStatusTx, bookkeeping, GraphTx.extend, GraphTx.replaceProperty]
  · intro target mem _
    simp only [syncStatusTx, bookkeeping, List.foldl_cons, List.foldl_nil, GraphTx.extend, GraphTx.replaceProperty,
      List.nil_append, List.cons_append, List.mem_cons, List.not_mem_nil, or_false] at mem
    rcases mem with rfl | rfl | rfl | rfl <;> simp [statusPrint, bookkeepingVocabulary, bookkeeping, Ns.t]
  · intro quad mem _
    have own : quad ∈ describeLocal (Domain.Software.syncIri iri) (syncStatusStatements server status) := by
      simpa [syncStatusTx, bookkeeping, GraphTx.extend, GraphTx.replaceProperty] using mem
    exact spoken_of_local own (syncStatus_speaks status)

/-- Each release that is added is written as a record of its own. -/
theorem addReleases_edits (iri : String) (known : List String) (place : Nat) (releases : List ReleaseIn)
    (state : State) (added : List String) :
    Edits state.data (addReleases server principal draw iri known place releases state added).state.data
      (releasesPrint server draw place releases) := by
  induction releases generalizing place state added with
  | nil => exact Edits.refl _ _
  | cons release rest ih =>
    have later : ∀ block ∈ (releasesPrint server draw (place + 1) rest).blocks,
        block ∈ (releasesPrint server draw place (release :: rest)).blocks := by
      intro block mem
      simp only [releasesPrint, List.zipIdx_cons, List.flatMap_cons]
      exact List.mem_append_right _ mem
    have skipped (state : State) (added : List String) : Edits state.data
        (addReleases server principal draw iri known (place + 1) rest state added).state.data
        (releasesPrint server draw place (release :: rest)) :=
      (ih (place + 1) state added).mono (by simp [releasesPrint]) (by simp [releasesPrint]) later
    simp only [addReleases]
    split
    · exact skipped state added
    · split
      · exact skipped state added
      · split
        · exact Edits.refl _ _
        · rename_i data written
          have first : Edits state.data data
              { blocks := releaseBlocks server (mint server.base .release ((draw.site place).site 0))
                  ((draw.site place).site 1) release } := by
            rw [apply_ok written]
            exact Edits.of_extend (fun quad mem => releaseQuads_spoken mem)
          have second := ih (place + 1) ⟨data, state.ops⟩ (added ++ [release.version])
          refine (first.trans second rfl).mono ?_ ?_ ?_
          · simp [Print.append, releasesPrint]
          · simp [Print.append, releasesPrint]
          · intro block mem
            simpa [Print.append, releasesPrint] using mem

theorem newReleases_edits (iri : String) (releases : List ReleaseIn) (state : State) :
    Edits state.data (newReleases server principal draw iri releases state).state.data
      (releasesPrint server draw 0 releases) := by
  unfold newReleases
  split
  · exact Edits.refl _ _
  · exact addReleases_edits iri _ 0 releases state []

theorem replace_edits (iri : String) (created : Option String) (input : SoftwareIn) :
    Edits state.data (Outcome.planned state (syncPlan server state draw principal iri created input)
      (fun tx => Outcome.commit server state tx (fun _ => .ok ()))).state.data (recordPrint server [iri] iri draw input) := by
  have edits : Edits state.data (Outcome.planned state (syncPlan server state draw principal iri created input)
      (fun tx => Outcome.commit server state tx (fun _ => .ok ()))).state.data
      (accepted (syncPlan server state draw principal iri created input) (recordPrint server [iri] iri draw input)) := by
    refine planned_edits (fun tx => tx) ?_
    intro tx accepted
    rw [syncPlan_ok accepted]
    exact Edits.of_replace (by simp [recordPrint]) (fun quad mem => softwareQuads_spoken mem)
  refine edits.mono ?_ ?_ ?_ <;> unfold accepted <;> split <;> simp

theorem recordSync_edits (iri : String) (cfg : SyncStatus) (created : Option String) (synced : Forge.Syncing) :
    Edits state.data (recordSync server state draw principal iri cfg created synced).state.data
      (syncedPrint server draw iri cfg synced) := by
  let status := syncedStatus cfg draw.now synced.out.changed
  let written := Outcome.planned state
    (syncPlan server state (draw.site 0) principal iri created { synced.input with sync := some (syncInOf cfg) })
    (fun tx => Outcome.commit server state tx (fun _ => .ok ()))
  have noted : Edits state.data (written.andThen (fun state _ => writeSyncStatus server state iri status)).state.data
      ((recordPrint server [iri] iri (draw.site 0) { synced.input with sync := some (syncInOf cfg) }).append
        (statusPrint iri)) :=
    andThen_edits (replace_edits iri created _) (fun _ => writeSyncStatus_edits iri status) rfl
  have closing (state : State) (added : List String) : Edits state.data
      ((if added.isEmpty then (⟨state, .ok ()⟩ : Outcome Unit)
        else writeSyncStatus server state iri { status with lastChanged := status.lastChanged ++ ["releases"] }).andThen
        (fun state _ => ⟨state, do
          let software ← Domain.Software.loadSoftware (server.ctx state draw) iri
          return ({ software, skipped := synced.out.skipped, releasesAdded := added,
                    changed := if added.isEmpty then synced.out.changed else synced.out.changed ++ ["releases"] } :
                  SyncAnswer)⟩)).state.data ((statusPrint iri).append {}) := by
    apply andThen_edits _ (fun _ => Edits.refl _ _) rfl
    split
    · exact Edits.refl _ _
    · exact writeSyncStatus_edits iri _
  have released (state : State) : Edits state.data
      ((newReleases server principal (draw.site 1) iri synced.out.releases state).andThen (fun state added =>
        (if added.isEmpty then (⟨state, .ok ()⟩ : Outcome Unit)
          else writeSyncStatus server state iri { status with lastChanged := status.lastChanged ++ ["releases"] }).andThen
          (fun state _ => ⟨state, do
            let software ← Domain.Software.loadSoftware (server.ctx state draw) iri
            return ({ software, skipped := synced.out.skipped, releasesAdded := added,
                      changed := if added.isEmpty then synced.out.changed else synced.out.changed ++ ["releases"] } :
                    SyncAnswer)⟩))).state.data
      ((releasesPrint server (draw.site 1) 0 synced.out.releases).append ((statusPrint iri).append {})) :=
    andThen_edits (newReleases_edits iri synced.out.releases state) (fun added => closing _ added) rfl
  refine (andThen_edits noted (fun _ => released _) rfl).mono ?_ ?_ ?_ <;> simp [Print.append, syncedPrint]

theorem sync_edits (id : String) (forge : Forge.GitHub) :
    Edits state.data (sync server state draw principal id forge).state.data
      (syncPrint server state draw principal id forge) := by
  unfold sync syncPrint
  cases principal.requireCurator with
  | error e => exact Edits.refl _ _
  | ok _ =>
    simp only [Outcome.planned, accepted]
    cases syncable server state draw (iriFor server.base .software id) with
    | error e => exact Edits.refl _ _
    | ok connected =>
      obtain ⟨existing, cfg, created⟩ := connected
      simp only []
      cases told : Forge.syncInto server.platform forge cfg.repo cfg.fields (Codec.softwareInFrom existing) with
      | error message =>
        refine (andThen_edits (writeSyncStatus_edits _ _) (fun _ => Edits.refl _ {}) rfl).mono ?_ ?_ ?_ <;>
          simp [Print.append]
      | ok synced => exact recordSync_edits _ cfg created synced

end Software

section

variable (server : Server)

def Artifacts.createPrint (state : State) (draw : Draw) (principal : Principal) (input : ArtifactIn) : Print :=
  let iri := mint server.base .artifact (draw.site 0)
  accepted (Artifacts.createPlan server state draw principal input)
    { blocks := recordBlocks iri Footprint.artifactVocabulary
        (Footprint.artifactNodes server.base server.platform iri (draw.site 1) input) }

def Types.typeVocabulary : List String :=
  [Ns.rdfType, Ns.t Ns.skos "prefLabel", Ns.t Ns.skos "definition", Ns.t Ns.skos "altLabel", Ns.t Ns.skos "inScheme",
    Ns.t Ns.tar "defaultMediaType", Ns.t Ns.prov "wasAttributedTo"]

def Types.createPrint (state : State) (draw : Draw) (principal : Principal) (input : Types.ArtifactTypeIn) : Print :=
  accepted (Types.createPlan server state draw principal input)
    (match Types.typeIri server state.data draw input with
      | .ok iri => { replaced := [iri], blocks := [⟨[.named iri], Types.typeVocabulary⟩] }
      | .error _ => {})

def Health.print (iri : String) : Print where
  reset := Health.recorded.map (fun localName => (iri, Ns.t Ns.tar localName))
  blocks := [⟨[.named iri], Health.recorded.map (Ns.t Ns.tar)⟩]

variable {server} {state : State} {draw : Draw} {principal : Principal}

theorem artifactQuads_spoken {iri : String} {input : ArtifactIn} {actor : String} {runIri : Option String} {quad : Quad}
    (mem : quad ∈ Artifact.artifactQuads server.platform server.base iri draw input actor runIri) :
    Spoken (recordBlocks iri Footprint.artifactVocabulary
      (Footprint.artifactNodes server.base server.platform iri draw input)) quad :=
  spoken_of_written (Footprint.mem_artifactQuads server.platform server.base mem)
    (Footprint.artifact_speaks server.platform server.base iri draw input actor runIri)

theorem Artifacts.create_edits (input : ArtifactIn) :
    Edits state.data (Artifacts.create server state draw principal input).state.data
      (Artifacts.createPrint server state draw principal input) := by
  unfold Artifacts.create Artifacts.createPrint
  cases planned : Artifacts.createPlan server state draw principal input with
  | error e => exact Edits.refl _ _
  | ok write =>
    have written : Edits state.data
        (Outcome.commit server state write.tx (fun _ => (.ok () : AppResult Unit))).state.data
        { blocks := recordBlocks (mint server.base .artifact (draw.site 0)) Footprint.artifactVocabulary
            (Footprint.artifactNodes server.base server.platform (mint server.base .artifact (draw.site 0))
              (draw.site 1) input) } := by
      apply commit_edits
      rw [Artifacts.createPlan_ok planned]
      exact Edits.of_extend (fun quad mem => artifactQuads_spoken mem)
    have remembered (state : State) (iri : String) : (Artifacts.rememberKey state input.externalKey iri).data = state.data := by
      unfold Artifacts.rememberKey
      split <;> rfl
    simp only [Outcome.planned, Outcome.andThen, accepted]
    split
    · simp only [remembered]
      exact written
    · exact written

theorem Types.type_speaks (input : Types.ArtifactTypeIn) (actor : String) :
    Speaks Types.typeVocabulary (Types.typeStatements server input actor) := by
  unfold Types.typeStatements
  simp only [speaks_append]
  and_intros
  all_goals with_reducible first
    | exact speaks_a _ (by simp [Types.typeVocabulary])
    | exact speaks_text _ (by simp [Types.typeVocabulary])
    | exact speaks_texts _ (by simp [Types.typeVocabulary])
    | exact speaks_optText _ (by simp [Types.typeVocabulary])
    | exact speaks_optLink _ _ (by simp [Types.typeVocabulary])
    | exact speaks_link _ _ (by simp [Types.typeVocabulary])

theorem Types.create_edits (input : Types.ArtifactTypeIn) :
    Edits state.data (Types.create server state draw principal input).state.data
      (Types.createPrint server state draw principal input) := by
  refine planned_edits (fun write : Instances.Write => write.tx) ?_
  intro write accepted
  obtain ⟨iri, _, chosen, rfl⟩ := Types.createPlan_ok accepted
  rw [chosen]
  exact Edits.of_replace (by simp) (fun quad mem => spoken_of_local mem (Types.type_speaks input principal.subject))

theorem Health.verdict_speaks (now : String) (verdict : Health.Verdict) :
    Speaks (Health.recorded.map (Ns.t Ns.tar)) (Health.verdictStatements server.platform now verdict) := by
  unfold Health.verdictStatements
  simp only [speaks_append]
  and_intros
  · exact speaks_text _ (by simp [Health.recorded])
  · exact speaks_datetime _ _ (by simp [Health.recorded])
  · exact speaks_text _ (by simp [Health.recorded])

theorem Health.record_edits (now iri : String) (verdict : Health.Verdict) :
    Edits state.data (Health.record server state now iri verdict).state.data (Health.print iri) := by
  apply commit_edits
  apply Edits.of_effect
  · simp [Health.recordTx, Health.recorded, GraphTx.extend, GraphTx.replaceProperty]
  · simp [Health.recordTx, Health.recorded, GraphTx.extend, GraphTx.replaceProperty]
  · intro target mem _
    simp only [Health.recordTx, Health.recorded, List.foldl_cons, List.foldl_nil, GraphTx.extend,
      GraphTx.replaceProperty, List.nil_append, List.cons_append, List.mem_cons, List.not_mem_nil, or_false] at mem
    rcases mem with rfl | rfl | rfl <;> simp [Health.print, Health.recorded, Ns.t]
  · intro quad mem _
    have own : quad ∈ describeLocal iri (Health.verdictStatements server.platform now verdict) := by
      simpa [Health.recordTx, Health.recorded, GraphTx.extend, GraphTx.replaceProperty] using mem
    exact spoken_of_local own (Health.verdict_speaks now verdict)

/-- The local graph is nobody's peer graph. -/
theorem peerGraph_ne_local (id : String) : Ns.peerGraph id ≠ Ns.gLocal := by
  intro same
  have letters := congrArg String.toList same
  simp [Ns.peerGraph, Ns.gPeerPrefix, Ns.gLocal, String.toList_append] at letters

theorem Peers.remove_edits (id : String) :
    Edits state.data (Peers.remove server state principal id).state.data {} := by
  unfold Peers.remove
  cases principal.requireAdmin with
  | error e => exact Edits.refl _ _
  | ok _ =>
    simp only [Outcome.planned]
    split
    · exact Edits.refl _ _
    · rename_i peer _
      have cleared : Edits state.data (Outcome.commit server state { clearGraphs := [Ns.peerGraph peer.id] }
          (fun _ => (.ok () : AppResult Unit))).state.data {} := by
        apply commit_edits
        apply Edits.of_effect
        · simp [(peerGraph_ne_local peer.id).symm]
        · simp
        · simp
        · simp
      have rest (state : State) : Edits state.data state.data {} := Edits.refl _ _
      change Edits _ _ (({} : Print).append {})
      exact andThen_edits cleared (fun _ => rest _) rfl

theorem stubTx_targets (ops : Ops) (iri graph : String) (stub : Peers.Stub) :
    (Peers.stubTx ops iri graph stub).clearGraphs = [] ∧ (Peers.stubTx ops iri graph stub).deleteProperties = [] ∧
      (∀ target ∈ (Peers.stubTx ops iri graph stub).deleteSubjects, target.2 = graph) ∧
      (Peers.stubTx ops iri graph stub).insert = stub.quads := by
  have fold : ∀ (others : List String) (tx : GraphTx), tx.clearGraphs = [] → tx.deleteProperties = [] →
      (∀ target ∈ tx.deleteSubjects, target.2 = graph) → tx.insert = [] →
      (others.foldl (fun tx other => GraphTx.replaceSubject tx other graph) tx).clearGraphs = [] ∧
      (others.foldl (fun tx other => GraphTx.replaceSubject tx other graph) tx).deleteProperties = [] ∧
      (∀ target ∈ (others.foldl (fun tx other => GraphTx.replaceSubject tx other graph) tx).deleteSubjects,
        target.2 = graph) ∧
      (others.foldl (fun tx other => GraphTx.replaceSubject tx other graph) tx).insert = [] := by
    intro others
    induction others with
    | nil => exact fun _ clear properties subjects insert => ⟨clear, properties, subjects, insert⟩
    | cons other rest ih =>
      intro tx clear properties subjects insert
      refine ih _ clear properties ?_ insert
      intro target mem
      rcases List.mem_append.1 mem with before | here
      · exact subjects target before
      · rw [List.mem_singleton.1 here]
  obtain ⟨clear, properties, subjects, insert⟩ :=
    fold (stub.others.filter (fun other => decide (other ∉ ops.resolveQueue)))
      (({} : GraphTx).replaceSubject iri graph) rfl rfl (by simp [GraphTx.replaceSubject]) rfl
  refine ⟨clear, properties, subjects, ?_⟩
  simp only [Peers.stubTx, GraphTx.extend, insert, List.nil_append]

theorem stubQuads_graph {iri graph : String} {parsed : List Peers.Triple} {quad : Quad}
    (mem : quad ∈ (Peers.stubQuads iri graph parsed).quads) : quad.graph = graph := by
  obtain ⟨node, _, kept⟩ := List.mem_flatMap.1 mem
  obtain ⟨triple, _, rfl⟩ := List.mem_map.1 kept
  rfl

/-- A stub stays out of the local graph. -/
theorem Peers.fetchStub_edits (now iri : String) (answer : Peers.Answer) :
    Edits state.data (Peers.fetchStub server state now iri answer).state.data {} := by
  unfold Peers.fetchStub
  split
  · exact Edits.refl _ _
  · simp only []
    split
    · exact Edits.refl _ _
    · rename_i parsed _
      split
      · exact Edits.refl _ _
      · rename_i data written
        rw [apply_ok written]
        obtain ⟨clear, properties, subjects, insert⟩ := stubTx_targets
          (Peers.notePeerContact state.ops (Peers.owningPeer state.ops iri) now none) iri
          (Peers.graphOf (Peers.owningPeer state.ops iri))
          (Peers.stubQuads iri (Peers.graphOf (Peers.owningPeer state.ops iri)) parsed)
        apply Edits.of_effect
        · simp [clear]
        · intro target mem here
          exact absurd (subjects target mem ▸ here) (peerGraph_ne_local _)
        · simp [properties]
        · intro quad mem here
          rw [insert] at mem
          exact absurd (stubQuads_graph mem ▸ here) (peerGraph_ne_local _)

end

end ToolArtifactRegistry.Api
