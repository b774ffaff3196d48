import ToolArtifactRegistry.Laws.Specimen

/-! A write changes only its own records exactly as long as nothing it describes or owns is another
record: agents, API documents, series and content all stand under IRIs a caller may choose. -/
namespace ToolArtifactRegistry.Laws

open Library.Rdf Library.Runs Ids Model Store Rdf Build Auth Domain Api Registry

/-- The classes of the six kinds of record. -/
def recordTypes : List String :=
  [Domain.Software.typeTarSoftware, Instance.typeTarInstance, Domain.Software.typeTarRelease, Artifact.typeDataset,
    Run.typeActivity, Vocabulary.classArtifactType]

def typed (iri kind : String) : Quad := ⟨.named iri, Ns.rdfType, .named kind, Ns.gLocal⟩

def IsRecord (data : Dataset) (iri : String) : Prop := ∃ kind ∈ recordTypes, typed iri kind ∈ data

def IsArtifact (data : Dataset) (iri : String) : Prop := typed iri Artifact.typeDataset ∈ data

instance (data : Dataset) (iri : String) : Decidable (IsRecord data iri) :=
  inferInstanceAs (Decidable (∃ kind ∈ recordTypes, typed iri kind ∈ data))

instance (data : Dataset) (iri : String) : Decidable (IsArtifact data iri) :=
  inferInstanceAs (Decidable (typed iri Artifact.typeDataset ∈ data))

/-- The local graph says the same of a record. -/
def Same (before after : Dataset) (iri : String) : Prop :=
  ∀ quad, quad.subject = .named iri → quad.graph = Ns.gLocal → (quad ∈ after ↔ quad ∈ before)

theorem Same.refl (data : Dataset) (iri : String) : Same data data iri := fun _ _ _ => Iff.rfl

theorem Same.trans {first second third : Dataset} {iri : String} (before : Same first second iri)
    (after : Same second third iri) : Same first third iri :=
  fun quad subject graph => (after quad subject graph).trans (before quad subject graph)

theorem Same.isRecord {before after : Dataset} {iri : String} (same : Same before after iri) :
    IsRecord after iri ↔ IsRecord before iri := by
  constructor
  · rintro ⟨kind, known, held⟩
    exact ⟨kind, known, (same _ rfl rfl).1 held⟩
  · rintro ⟨kind, known, held⟩
    exact ⟨kind, known, (same _ rfl rfl).2 held⟩

section Addressed

variable (server : Server) (state : State)

/-- The run an advertisement is known to be about, and the artifacts its entries stand for. -/
def addressedRun (principal : Principal) (run : RunIn) : List String :=
  ((Advertise.nonEmptyKey run).bind (fun key =>
    principal.instanceIri.bind (fun instanceIri => state.ops.runForKey key instanceIri))).toList

def addressedArtifacts (targets : List String) : List String :=
  targets.filter (fun iri => decide (IsArtifact state.data iri))

/-- The records a request names. Those it mints are not there yet. -/
def addressedBy (draw : Draw) (principal : Principal) : Action → List String
  | .patchSoftware id _ => [iriFor server.base .software id]
  | .deleteSoftware id => [iriFor server.base .software id]
  | .declareSoftware id _ => [iriFor server.base .software id]
  | .syncSoftware id _ => [iriFor server.base .software id]
  | .deleteRelease _ releaseId => [iriFor server.base .release releaseId]
  | .patchInstance id _ => [iriFor server.base .instance_ id]
  | .deleteInstance id => [iriFor server.base .instance_ id]
  | .declareInstance id _ => [iriFor server.base .instance_ id]
  | .announceSelf input => (Instances.existingRecord state.data principal input).toList
  | .advertise input _ =>
    addressedRun state principal (Advertise.runInput server input.run) ++ addressedArtifacts state
      (input.artifacts.flatMap (Advertise.entryTargets server state.ops (Advertise.runInput server input.run)))
  | .ingest event =>
    addressedRun state principal (Openlineage.runOf server event) ++ addressedArtifacts state
      (((Openlineage.datasets event "outputs").flatMap
          (Openlineage.datasetTargets server state.data state.ops .produced)) ++
        (Openlineage.datasets event "inputs").flatMap
          (Openlineage.datasetTargets server state.data state.ops .consumed))
  | .createType input =>
    match Types.typeIri server state.data draw input with
    | .ok iri => [iri]
    | .error _ => []
  | _ => []

def addressed : Event → List String
  | .request credential draw action =>
    match principalOf server state draw.now credential with
    | .ok principal => addressedBy server state draw principal action
    | .error _ => []
  | .health _ iri _ => [iri]
  | _ => []

/-- The write replaces a subject that owns the record, describes the record, or resets something of it. -/
def Touches (print : Print) (data : Dataset) (iri : String) : Prop :=
  (∃ subject ∈ print.replaced, Store.Owns data Ns.gLocal (.named subject) (.named iri)) ∨ .named iri ∈ print.nodes ∨
    ∃ target ∈ print.reset, target.1 = iri

instance (print : Print) (data : Dataset) (iri : String) : Decidable (Touches print data iri) :=
  inferInstanceAs (Decidable ((∃ subject ∈ print.replaced, Store.Owns data Ns.gLocal (.named subject) (.named iri)) ∨
    .named iri ∈ print.nodes ∨ ∃ target ∈ print.reset, target.1 = iri))

/-- Every record there is that the event touches is one it addresses. -/
def Confined (state : State) (event : Event) : Prop :=
  ∀ iri, IsRecord state.data iri → Touches (print server state event) state.data iri → iri ∈ addressed server state event

def subjects (data : Dataset) : List String := data.quads.filterMap (fun quad => quad.subject.iri?)

theorem IsRecord.subject {data : Dataset} {iri : String} (there : IsRecord data iri) : iri ∈ subjects data := by
  obtain ⟨kind, _, held⟩ := there
  exact List.mem_filterMap.2 ⟨typed iri kind, held, rfl⟩

instance (event : Event) : Decidable (Confined server state event) :=
  decidable_of_iff (∀ iri ∈ subjects state.data, IsRecord state.data iri →
      Touches (print server state event) state.data iri → iri ∈ addressed server state event)
    ⟨fun holds iri there => holds iri there.subject there, fun holds iri _ => holds iri⟩

end Addressed

variable {server : Server}

/-- A step leaves alone what it does not touch. -/
theorem step_same {state : State} {event : Event} {iri : String}
    (apart : ¬Touches (print server state event) state.data iri) :
    Same state.data (step server state event).data iri := by
  intro quad subject graph
  have edits := step_edits server state event
  constructor
  · intro held
    rcases edits.new quad held graph with before | spoken
    · exact before
    · exact absurd (Or.inr (Or.inl (subject ▸ spoken.mem_nodes))) apart
  · intro held
    refine edits.kept quad held graph ?_
    rintro (⟨owner, mem, owns⟩ | ⟨target, mem, same, _⟩)
    · exact apart (Or.inl ⟨owner, mem, subject ▸ owns⟩)
    · exact apart (Or.inr (Or.inr ⟨target, mem, (Node.named.inj (subject.symm.trans same)).symm⟩))

/-- A record is left alone by every confined step that does not address it. -/
theorem unaddressed_same {start : State} {events : List Event} {iri : String} (there : IsRecord start.data iri)
    (confined : Meets (step server) (Confined server) start events)
    (unaddressed : Meets (step server) (fun state event => iri ∉ addressed server state event) start events) :
    Same start.data (run (step server) start events).data iri := by
  induction events generalizing start with
  | nil => exact Same.refl _ _
  | cons event rest ih =>
    have first : Same start.data (step server start event).data iri :=
      step_same (fun touches => unaddressed.1 (confined.1 iri there touches))
    exact first.trans (ih (first.isRecord.2 there) confined.2 unaddressed.2)

section Specimen

open Specimen

def software (name : String) (docs : List ApiDoc) : Action := .createSoftware { name := name, apiDocs := docs }

/-- A second software gives the first one's IRI as the address of its API description. -/
def claimed : State :=
  run (step (registry [])) State.empty
    [byRoot "a" (software "one" []), byRoot "b" (software "two" [{ url := "https://reg.example/software/aa" }])]

def apart : State :=
  run (step (registry [])) State.empty
    [byRoot "a" (software "one" []), byRoot "b" (software "two" [{ url := "https://two.example/openapi.json" }])]

def secondPatch : Event := byRoot "p" (.patchSoftware "https://reg.example/software/ba" (.object []))

theorem apart_patch_same :
    Same apart.data (run (step (registry [])) apart [secondPatch]).data "https://reg.example/software/aa" :=
  have evaluated : IsRecord apart.data "https://reg.example/software/aa" ∧
      Meets (step (registry [])) (Confined (registry [])) apart [secondPatch] ∧
      Meets (step (registry [])) (fun state event => "https://reg.example/software/aa" ∉ addressed (registry []) state event)
        apart [secondPatch] := by
    decide
  unaddressed_same evaluated.1 evaluated.2.1 evaluated.2.2

/-- A PATCH of the second software deletes what the registry says of the first. -/
theorem patch_takes_another :
    IsRecord claimed.data "https://reg.example/software/aa" ∧
      "https://reg.example/software/aa" ∉ addressed (registry []) claimed secondPatch ∧
      ¬Same claimed.data (step (registry []) claimed secondPatch).data "https://reg.example/software/aa" := by
  let name : Quad := ⟨.named "https://reg.example/software/aa", Ns.t Ns.schema "name", .simple "one", Ns.gLocal⟩
  have evaluated : IsRecord claimed.data "https://reg.example/software/aa" ∧
      "https://reg.example/software/aa" ∉ addressed (registry []) claimed secondPatch ∧
      ¬(name ∈ (step (registry []) claimed secondPatch).data ↔ name ∈ claimed.data) := by
    decide
  exact ⟨evaluated.1, evaluated.2.1, fun same => evaluated.2.2 (same name rfl rfl)⟩

end Specimen

end ToolArtifactRegistry.Laws
