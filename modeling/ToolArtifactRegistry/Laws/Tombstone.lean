import ToolArtifactRegistry.Laws.Specimen

/-! A tombstone is permanent exactly as long as nothing that owns the record is replaced: every
update rewrites its subject from fields that do not carry the marker. -/
namespace ToolArtifactRegistry.Laws

open Library.Rdf Library.Runs Ids Model Store Rdf Build Auth Domain Api Registry

/-- The marker a withdrawal puts on a record. -/
def marker (iri : String) : Quad := ⟨.named iri, Ns.t Ns.tar "tombstoned", tombstonedTrue, Ns.gLocal⟩

def Withdrawn (data : Dataset) (iri : String) : Prop := marker iri ∈ data

instance (data : Dataset) (iri : String) : Decidable (Withdrawn data iri) :=
  inferInstanceAs (Decidable (marker iri ∈ data))

theorem Withdrawn.isTombstoned {data : Dataset} {iri : String} (withdrawn : Withdrawn data iri) :
    isTombstoned data (.named iri) = true :=
  Dataset.any_eq_true.2 ⟨marker iri, withdrawn, by simp [marker]⟩

/-- The properties that are reset where they stand. -/
def volatileVocabulary : List String :=
  Ns.t Ns.tar "lastSeenAt" :: Api.Software.bookkeepingVocabulary ++ Advertise.outcomeVocabulary ++
    Health.recorded.map (Ns.t Ns.tar)

section Reset

/-- A write that resets none but volatile properties. -/
def Steady (print : Print) : Prop := ∀ target ∈ print.reset, target.2 ∈ volatileVocabulary

theorem steady_of_none {print : Print} (none_ : print.reset = []) : Steady print := by
  intro target mem
  simp [none_] at mem

theorem Steady.append {first second : Print} (left : Steady first) (right : Steady second) : Steady (first.append second) := by
  intro target mem
  exact (List.mem_append.1 mem).elim (left target) (right target)

theorem steady_accepted {α : Type} {plan : AppResult α} {print : Print} (steady : Steady print) :
    Steady (accepted plan print) := by
  unfold accepted
  split
  · exact steady
  · exact steady_of_none rfl

theorem seen_steady (iri : String) : Steady (Instances.seenPrint iri) := by
  intro target mem
  rw [List.mem_singleton.1 mem]
  exact List.mem_append_left _ (List.mem_append_left _ List.mem_cons_self)

theorem status_steady (iri : String) : Steady (Api.Software.statusPrint iri) := by
  intro target mem
  obtain ⟨predicate, known, rfl⟩ := List.mem_map.1 mem
  exact List.mem_append_left _ (List.mem_append_left _ (List.mem_cons_of_mem _ known))

theorem run_steady (runIri : String) (association : Node) : Steady (Advertise.runPrint runIri association) := by
  intro target mem
  obtain ⟨predicate, known, rfl⟩ := List.mem_map.1 mem
  exact List.mem_append_left _ (List.mem_append_right _ known)

theorem health_steady (iri : String) : Steady (Health.print iri) := by
  intro target mem
  obtain ⟨localName, known, rfl⟩ := List.mem_map.1 mem
  exact List.mem_append_right _ (List.mem_map.2 ⟨localName, known, rfl⟩)

variable (server : Server) (state : State)

theorem announce_steady (draw : Draw) (principal : Principal) (input : SelfAnnounceIn) :
    Steady (Instances.announcePrint server state draw principal input) := by
  apply steady_accepted
  split
  · unfold Instances.reannouncePrint
    split
    · exact (steady_of_none rfl).append (seen_steady _)
    · exact steady_of_none rfl
  · exact (steady_of_none rfl).append (seen_steady _)

theorem sync_steady (draw : Draw) (principal : Principal) (id : String) (forge : Forge.GitHub) :
    Steady (Api.Software.syncPrint server state draw principal id forge) := by
  apply steady_accepted
  split
  · exact steady_of_none rfl
  · split
    · exact status_steady _
    · exact (((steady_of_none rfl).append (status_steady _)).append (steady_of_none rfl)).append (status_steady _)

theorem action_steady (draw : Draw) (principal : Principal) (action : Action) :
    Steady (actionPrint server state draw principal action) := by
  cases action with
  | syncSoftware id forge => exact sync_steady server state draw principal id forge
  | announceSelf input => exact announce_steady server state draw principal input
  | patchSoftware id body =>
    apply steady_accepted
    split <;> exact steady_of_none rfl
  | patchInstance id body =>
    apply steady_accepted
    split <;> exact steady_of_none rfl
  | createType input =>
    apply steady_accepted
    split <;> exact steady_of_none rfl
  | advertise input role =>
    simp only [actionPrint, Advertise.print]
    split
    · exact steady_of_none rfl
    · exact (run_steady _ _).append (steady_of_none rfl)
  | ingest event =>
    simp only [actionPrint, Openlineage.print]
    split
    · exact steady_of_none rfl
    · exact (run_steady _ _).append (steady_of_none rfl)
  | deleteSoftware id => exact steady_accepted (steady_accepted (steady_of_none rfl))
  | deleteInstance id => exact steady_accepted (steady_accepted (steady_of_none rfl))
  | deleteRelease id releaseId => exact steady_accepted (steady_accepted (steady_of_none rfl))
  | declareSoftware id input => exact steady_accepted (steady_accepted (steady_of_none rfl))
  | declareInstance id input => exact steady_accepted (steady_accepted (steady_of_none rfl))
  | createSoftware input => exact steady_accepted (steady_of_none rfl)
  | createRelease id input => exact steady_accepted (steady_of_none rfl)
  | createInstance input => exact steady_accepted (steady_of_none rfl)
  | createArtifact input => exact steady_accepted (steady_of_none rfl)
  | mintToken | revokeToken | mintSoftwareToken | revokeSoftwareToken | removePeer => exact steady_of_none rfl

theorem step_steady (event : Event) : Steady (print server state event) := by
  unfold print
  split
  · split
    · exact action_steady server state _ _ _
    · exact steady_of_none rfl
  · exact health_steady _
  · exact steady_of_none rfl

end Reset

theorem marker_not_volatile : Ns.t Ns.tar "tombstoned" ∉ volatileVocabulary := by decide

variable (server : Server)

/-- Nothing the event replaces owns the record in the local graph; a subject owns itself. -/
def Leaves (iri : String) (state : State) (event : Event) : Prop :=
  ∀ subject ∈ (print server state event).replaced, ¬Store.Owns state.data Ns.gLocal (.named subject) (.named iri)

instance (iri : String) (state : State) (event : Event) : Decidable (Leaves server iri state event) :=
  inferInstanceAs (Decidable (∀ subject ∈ (print server state event).replaced,
    ¬Store.Owns state.data Ns.gLocal (.named subject) (.named iri)))

variable {server}

/-- A step that leaves a record keeps the marker on it. -/
theorem step_withdrawn {state : State} {iri : String} {event : Event} (withdrawn : Withdrawn state.data iri)
    (leaves : Leaves server iri state event) : Withdrawn (step server state event).data iri := by
  refine (step_edits server state event).kept (marker iri) withdrawn rfl ?_
  rintro (⟨subject, mem, owns⟩ | ⟨target, mem, _, predicate⟩)
  · exact leaves subject mem owns
  · have same : Ns.t Ns.tar "tombstoned" = target.2 := predicate
    exact marker_not_volatile (same ▸ step_steady server state event target mem)

section Specimen

open Specimen

/-- Two deployments are registered, and the first is withdrawn. -/
def withdrawnRun : List Event :=
  [byRoot "i" (.createInstance { label := "one" }), byRoot "j" (.createInstance { label := "two" }),
    byRoot "d" (.deleteInstance "https://reg.example/instance/ia")]

def emptyPatch (iri : String) : Event := byRoot "p" (.patchInstance iri (.object []))

end Specimen

section Exact

theorem support_unmarked : Ns.t Ns.tar "tombstoned" ∉ Footprint.supportVocabulary := by decide

end Exact

end ToolArtifactRegistry.Laws
