import ToolArtifactRegistry.Laws.Specimen

/-! Writes stay with the records of an endpoint exactly as long as the other checks refuse what its
path names: only PATCH asks whether the registry is authoritative, and no endpoint asks for the kind. -/
namespace ToolArtifactRegistry.Laws

open Library.Rdf Library.Serde Library.Results Ids Model Store Rdf Build Auth Domain Api Registry

section Refusals

def SameQuads (before after : Dataset) : Prop := ∀ quad, quad ∈ after ↔ quad ∈ before

/-- The graph says the same, and the operational tables hold the same. -/
def Unchanged (before after : State) : Prop := SameQuads before.data after.data ∧ after.ops = before.ops

theorem Unchanged.refl (state : State) : Unchanged state state := ⟨fun _ => Iff.rfl, rfl⟩

/-- The operation fails and changes nothing. -/
def Refuses {α : Type} (state : State) (outcome : Outcome α) : Prop :=
  (∃ error, outcome.response = .error error) ∧ Unchanged state outcome.state

variable {α β : Type} {server : Server} {state : State}

theorem refuses_forget {outcome : Outcome α} : Refuses state outcome.forget ↔ Refuses state outcome := by
  unfold Refuses Outcome.forget
  cases outcome.response <;> simp [Except.map]

theorem not_refuses_of_ok {outcome : Outcome α} {value : α} (answers : outcome.response = .ok value) :
    ¬Refuses state outcome := by
  rintro ⟨⟨error, failed⟩, _⟩
  rw [answers] at failed
  cases failed

theorem refuses_planned {plan : AppResult β} {proceed : β → Outcome α} :
    Refuses state (Outcome.planned state plan proceed) ↔
      ∀ value, plan = .ok value → Refuses state (proceed value) := by
  cases plan with
  | error e =>
    have refused : Refuses state (Outcome.planned state (.error e) proceed) := ⟨⟨e, rfl⟩, Unchanged.refl state⟩
    simp [refused]
  | ok value => simp [Outcome.planned]

/-- A transaction goes through when every IRI it refers to parses. -/
theorem apply_of_valid {data : Dataset} {tx : GraphTx} (valid : ∀ iri ∈ tx.references, server.platform.validIri iri = true) :
    Store.apply server.platform data tx = .ok (effect data tx) := by
  unfold Store.apply
  have none_ : tx.references.find? (fun iri => !server.platform.validIri iri) = none := by
    rw [List.find?_eq_none]
    intro iri mem
    simp [valid iri mem]
  rw [none_]

theorem apply_of_invalid {data : Dataset} {tx : GraphTx} {iri : String} (mem : iri ∈ tx.references)
    (invalid : server.platform.validIri iri = false) : ∃ e, Store.apply server.platform data tx = .error e := by
  unfold Store.apply
  cases found : tx.references.find? (fun iri => !server.platform.validIri iri) with
  | none =>
    rw [List.find?_eq_none] at found
    exact absurd (found iri mem) (by simp [invalid])
  | some bad => exact ⟨_, rfl⟩

/-- A transaction that is answered once it is applied is refused for an IRI that does not parse. -/
theorem refuses_commit {tx : GraphTx} {answer : State → AppResult α}
    (answers : (∀ iri ∈ tx.references, server.platform.validIri iri = true) →
      ∃ value, answer { state with data := effect state.data tx } = .ok value) :
    Refuses state (Outcome.commit server state tx answer) ↔
      ¬∀ iri ∈ tx.references, server.platform.validIri iri = true := by
  by_cases valid : ∀ iri ∈ tx.references, server.platform.validIri iri = true
  · obtain ⟨value, answered⟩ := answers valid
    have goes : (Outcome.commit server state tx answer).response = .ok value := by
      rw [Outcome.commit, apply_of_valid valid]
      exact answered
    exact iff_of_false (not_refuses_of_ok goes) (not_not_intro valid)
  · refine iff_of_true ?_ valid
    obtain ⟨iri, mem, invalid⟩ : ∃ iri ∈ tx.references, server.platform.validIri iri = false := by
      by_contra none_
      apply valid
      intro iri mem
      by_contra bad
      exact none_ ⟨iri, mem, by simpa using bad⟩
    obtain ⟨e, failed⟩ := @apply_of_invalid _ state.data _ _ mem invalid
    unfold Outcome.commit
    rw [failed]
    exact ⟨⟨e, rfl⟩, Unchanged.refl state⟩

end Refusals

section Reads

variable {platform : Platform} {data : Dataset} {iri : String}

theorem mem_describeQuads {quad : Quad} (held : quad ∈ data) (about : quad.subject = .named iri) :
    quad ∈ describeQuads data iri := by
  obtain ⟨depth, _, same⟩ := describeQuads_eq data iri
  rw [same, mem_describeTo]
  refine ⟨0, Nat.zero_le _, mem_level.2 ⟨held, ?_⟩⟩
  simp [about, Library.Worklist.ring]

theorem exists_true : exists_ platform data iri = .ok true ↔
    platform.validIri iri = true ∧ ∃ quad ∈ data, quad.subject = .named iri := by
  unfold exists_
  by_cases valid : platform.validIri iri = true
  · simp [valid, Dataset.any_eq_true, about]
  · simp [valid]

/-- Something is described exactly when some graph says something about it. -/
theorem described_iff : (∃ quads, describe platform data iri = .ok quads ∧ quads.isEmpty = false) ↔
    exists_ platform data iri = .ok true := by
  rw [exists_true]
  unfold describe
  by_cases valid : platform.validIri iri = true
  · simp only [valid, if_true, true_and, Except.ok.injEq, exists_eq_left']
    constructor
    · intro said
      by_contra silent
      have none_ : data.matching (about (.named iri)) = [] := by
        rw [List.eq_nil_iff_forall_not_mem]
        intro quad mem
        obtain ⟨held, here⟩ := Dataset.mem_matching.1 mem
        exact silent ⟨quad, held, of_decide_eq_true here⟩
      rw [describe_isEmpty none_] at said
      cases said
    · rintro ⟨quad, held, here⟩
      have mem := mem_describeQuads held here
      cases shape : describeQuads data iri with
      | nil =>
        rw [shape] at mem
        cases mem
      | cons first rest => rfl
  · simp [valid]

/-- A record with this type is read back. -/
theorem hasType_of_mem {quad : Quad} {kind : String} (held : quad ∈ data) (about : quad.subject = .named iri)
    (type : quad.predicate = Ns.rdfType) (object : quad.object = .named kind) :
    (Props.fromQuads iri (describeQuads data iri)).hasType kind = true := by
  rw [Props.hasType_iff]
  refine ⟨quad, ?_, type, object⟩
  simp only [Props.fromQuads, Props.keyed, List.mem_filter, decide_eq_true_eq]
  exact ⟨mem_describeQuads held about, by rw [about]; rfl⟩

theorem load_reads {quad : Quad} {kind : String} (valid : platform.validIri iri = true) (held : quad ∈ data)
    (about : quad.subject = .named iri) (type : quad.predicate = Ns.rdfType) (object : quad.object = .named kind) :
    describe platform data iri = .ok (describeQuads data iri) ∧ (describeQuads data iri).isEmpty = false ∧
      (Props.fromQuads iri (describeQuads data iri)).hasType kind = true := by
  refine ⟨by simp [describe, valid], ?_, hasType_of_mem held about type object⟩
  have mem := mem_describeQuads held about
  cases shape : describeQuads data iri with
  | nil =>
    rw [shape] at mem
    cases mem
  | cons first rest => rfl

theorem loadSoftware_reads {ctx : Ctx} {quad : Quad} (valid : ctx.platform.validIri iri = true) (held : quad ∈ ctx.data)
    (about : quad.subject = .named iri) (type : quad.predicate = Ns.rdfType)
    (object : quad.object = .named Domain.Software.typeSoftware) : ∃ value, Domain.Software.loadSoftware ctx iri = .ok value := by
  obtain ⟨described, said, typed⟩ := load_reads valid held about type object
  simp [Domain.Software.loadSoftware, described, said, typed, bind, Except.bind, pure, Except.pure]

theorem loadInstance_reads {ctx : Ctx} {quad : Quad} (valid : ctx.platform.validIri iri = true) (held : quad ∈ ctx.data)
    (about : quad.subject = .named iri) (type : quad.predicate = Ns.rdfType)
    (object : quad.object = .named Instance.typeSoftwareAgent) : ∃ value, Instance.loadInstance ctx iri = .ok value := by
  obtain ⟨described, said, typed⟩ := load_reads valid held about type object
  simp [Instance.loadInstance, described, said, typed, bind, Except.bind, pure, Except.pure]

end Reads

section Endpoints

variable (server : Server)

/-- What a path id stands for at an endpoint, with the kind of record the endpoint is for. -/
def targets : Action → List (Kind × String)
  | .patchSoftware id _ => [(.software, iriFor server.base .software id)]
  | .deleteSoftware id => [(.software, iriFor server.base .software id)]
  | .declareSoftware id _ => [(.software, iriFor server.base .software id)]
  | .syncSoftware id _ => [(.software, iriFor server.base .software id)]
  | .createRelease id _ => [(.software, iriFor server.base .software id)]
  | .deleteRelease id releaseId =>
    [(.software, iriFor server.base .software id), (.release, iriFor server.base .release releaseId)]
  | .mintSoftwareToken id _ => [(.software, iriFor server.base .software id)]
  | .revokeSoftwareToken id _ => [(.software, iriFor server.base .software id)]
  | .patchInstance id _ => [(.instance_, iriFor server.base .instance_ id)]
  | .deleteInstance id => [(.instance_, iriFor server.base .instance_ id)]
  | .declareInstance id _ => [(.instance_, iriFor server.base .instance_ id)]
  | .mintToken id _ => [(.instance_, iriFor server.base .instance_ id)]
  | .revokeToken id _ => [(.instance_, iriFor server.base .instance_ id)]
  | _ => []

/-- A local IRI of the endpoint's kind. -/
def Homed (target : Kind × String) : Prop := (localId server.base target.2).map Prod.fst = some target.1

instance (target : Kind × String) : Decidable (Homed server target) := inferInstanceAs (Decidable (_ = _))

/-- Some path id resolves to a foreign IRI, a record of another kind or a part of a record. -/
def Stray (action : Action) : Prop := ∃ target ∈ targets server action, ¬Homed server target

instance (action : Action) : Decidable (Stray server action) :=
  inferInstanceAs (Decidable (∃ target ∈ targets server action, ¬Homed server target))

/-- A request whose path strays fails, and the graph and the tables stay as they were. -/
def Contained (state : State) (draw : Draw) (principal : Principal) (action : Action) : Prop :=
  Stray server action → Refuses state (handle server state draw principal action)

/-- The registry's own IRIs parse: the graph it writes, the terms of its bookkeeping, and what it mints. -/
structure WellFormed (draw : Draw) : Prop where
  graph : server.platform.validIri Ns.gLocal = true
  terms : ∀ localName ∈ Api.Software.bookkeeping, server.platform.validIri (Ns.tar ++ localName) = true
  minted : ∀ kind path, server.platform.validIri (iriOf server.base kind (draw.id path)) = true

variable (state : State) (draw : Draw) (principal : Principal)

/-- The checks a tombstone is put on after. -/
def tombstones (iri : String) : Prop := exists_ server.platform state.data iri = .ok true

def declares (subject : String) (input : CapabilityIn) : Prop :=
  exists_ server.platform state.data subject = .ok true ∧
    server.platform.enforceWrite state.data (Domain.Software.capabilityQuads server.platform
      (Instances.capabilityNode server state.data draw subject) input) = .ok () ∧
    server.platform.validIri (Instances.capabilityNode server state.data draw subject) = true

def releases (iri : String) (input : ReleaseIn) : Prop :=
  exists_ server.platform state.data iri = .ok true ∧
    server.platform.enforceWrite state.data (Domain.Software.releaseQuads server.platform server.base
      (mint server.base .release (draw.site 0)) iri (draw.site 1) input principal.subject) = .ok ()

def mints (iri : String) (fallback : List String) (input : MintToken) : Prop :=
  exists_ server.platform state.data iri = .ok true ∧
    Tokens.checkScopes server principal (Tokens.scopesOr fallback input) = .ok () ∧
    (∃ expiry, Tokens.lifetime server draw input.expiresIn = .ok expiry) ∧
    ∀ row ∈ state.ops.tokens, row.id ≠ draw.id [] ∧ row.pre ≠ (draw.site 0).random []

def patchesInstance (iri : String) (body : Json) : Prop :=
  exists_ server.platform state.data iri = .ok true ∧
    ∃ current input software,
      Instance.loadInstance (server.ctx state draw) iri = .ok current ∧
      Instances.checkOwner principal current = .ok () ∧
      Instances.patched server current body = .ok input ∧
      Instances.resolveSoftwareFor server state.data input = .ok software ∧
      Instances.checkDeployable server state.data software input = .ok () ∧
      server.platform.enforceWrite state.data (Instance.instanceQuads server.platform server.base iri draw input
        principal.subject software) = .ok ()

def patchesSoftware (iri : String) (body : Json) : Prop :=
  exists_ server.platform state.data iri = .ok true ∧
    ∃ current input,
      Domain.Software.loadSoftware (server.ctx state draw) iri = .ok current ∧
      Api.Software.patched server current body = .ok input ∧
      Api.Software.checkRegistrationBinding server input = .ok () ∧
      Api.Software.checkSync input.sync = .ok () ∧
      server.platform.enforceWrite state.data (Domain.Software.softwareQuads server.platform server.base iri draw input
        principal.subject ((propsOf state.data iri).str Ns.dct "created")) = .ok ()

def withdrawsRelease (softwareIri iri : String) : Prop :=
  exists_ server.platform state.data iri = .ok true ∧ (propsOf state.data iri).iri Ns.dct "isVersionOf" = some softwareIri

/-- What a repository said, still connected to it. -/
def syncedInput (cfg : SyncStatus) (synced : Forge.Syncing) : SoftwareIn :=
  { synced.input with sync := some (Api.Software.syncInOf cfg) }

/-- The checks after which a synchronisation leaves a trace: the repository is asked, and either its
failure is noted, or the record it described passes and is written. -/
def synchronises (iri : String) (forge : Forge.GitHub) : Prop :=
  ∃ existing cfg created, Api.Software.syncable server state draw iri = .ok (existing, cfg, created) ∧
    match Forge.syncInto server.platform forge cfg.repo cfg.fields (Codec.softwareInFrom existing) with
    | .error message =>
      server.platform.validIri (Domain.Software.syncIri iri) = true ∧
        ¬SameQuads state.data (effect state.data
          (Api.Software.syncStatusTx server iri (Api.Software.failedStatus cfg draw.now message)))
    | .ok synced =>
      server.platform.enforceWrite state.data (Domain.Software.softwareQuads server.platform server.base iri
          (draw.site 0) (syncedInput cfg synced) principal.subject created) = .ok () ∧
        (server.platform.validIri (Domain.Software.syncIri iri) = true ∨
          ¬SameQuads state.data (effect state.data (Domain.Software.replaceSoftware server.platform server.base iri
            (draw.site 0) (syncedInput cfg synced) principal.subject created)))

def revokes (tokenId : String) (of : TokenRow → Option String) (iri : String) : Prop :=
  ∃ row, state.ops.getToken tokenId = some row ∧ of row = some iri

variable {server state draw principal}

theorem tombstonePlan_iff {iri : String} {tx : GraphTx} :
    Instances.tombstonePlan server state draw principal iri = .ok tx ↔ tombstones server state iri ∧
      tx = ({} : GraphTx).extend (describeLocal iri (Instances.tombstoneStatements server draw principal.subject)) := by
  unfold Instances.tombstonePlan tombstones
  rw [← described_iff]
  simp only [guard_ok, bind_ok, pure_ok, reduceCtorEq, imp_false, Bool.not_eq_true]
  constructor
  · rintro ⟨quads, described, said, rfl⟩
    exact ⟨⟨quads, described, said⟩, rfl⟩
  · rintro ⟨⟨quads, described, said⟩, rfl⟩
    exact ⟨quads, described, said, rfl⟩

/-- An insertion is never stopped by an IRI. -/
theorem refuses_insert {α : Type} {quads : List Quad} {answer : State → AppResult α}
    (answers : ∃ value, answer { state with data := effect state.data (({} : GraphTx).extend quads) } = .ok value) :
    ¬Refuses state (Outcome.commit server state (({} : GraphTx).extend quads) answer) := by
  rw [refuses_commit (fun _ => answers)]
  simp [GraphTx.references, GraphTx.extend]

theorem tombstone_refuses {iri : String} :
    Refuses state (Instances.tombstone server state draw principal iri) ↔ ¬tombstones server state iri := by
  unfold Instances.tombstone
  rw [refuses_planned]
  constructor
  · intro refused there
    exact refuses_insert ⟨(), rfl⟩ (refused _ (tombstonePlan_iff.2 ⟨there, rfl⟩))
  · intro silent tx planned
    exact absurd (tombstonePlan_iff.1 planned).1 silent

theorem capabilityPlan_iff {subject : String} {input : CapabilityIn} {write : Instances.Write} :
    Instances.capabilityPlan server state draw subject input = .ok write ↔
      exists_ server.platform state.data subject = .ok true ∧
        server.platform.enforceWrite state.data (Domain.Software.capabilityQuads server.platform
          (Instances.capabilityNode server state.data draw subject) input) = .ok () ∧
        write = ⟨Instances.capabilityNode server state.data draw subject,
          ((({} : GraphTx).replaceSubject (Instances.capabilityNode server state.data draw subject) Ns.gLocal).extend
            (Domain.Software.capabilityQuads server.platform (Instances.capabilityNode server state.data draw subject)
              input)).extend (describeLocal subject (link server.platform Ns.tar "hasCapability"
                (Instances.capabilityNode server state.data draw subject)))⟩ := by
  unfold Instances.capabilityPlan
  rw [← described_iff]
  simp only [guard_ok, bind_ok, pure_ok, reduceCtorEq, imp_false, Bool.not_eq_true]
  constructor
  · rintro ⟨quads, described, said, _, checked, rfl⟩
    have same : quads = describeQuads state.data subject := by
      unfold describe at described
      split at described <;> simp_all
    subst same
    exact ⟨⟨_, described, said⟩, checked, rfl⟩
  · rintro ⟨⟨quads, described, said⟩, checked, rfl⟩
    have same : quads = describeQuads state.data subject := by
      unfold describe at described
      split at described <;> simp_all
    subst same
    exact ⟨_, described, said, (), checked, rfl⟩

theorem declare_refuses {subject layer : String} {input : CapabilityIn} (wellFormed : WellFormed server draw) :
    Refuses state (Instances.putCapabilityOn server state draw subject input layer) ↔
      ¬declares server state draw subject input := by
  unfold Instances.putCapabilityOn declares
  rw [refuses_planned]
  constructor
  · rintro refused ⟨there, checked, valid⟩
    refine (refuses_commit ?_).1 (refused _ (capabilityPlan_iff.2 ⟨there, checked, rfl⟩)) ?_
    · exact fun _ => ⟨_, rfl⟩
    · simp [GraphTx.references, GraphTx.extend, GraphTx.replaceSubject, valid, wellFormed.graph]
  · intro stopped write planned
    obtain ⟨there, checked, rfl⟩ := capabilityPlan_iff.1 planned
    refine (refuses_commit ?_).2 (fun valid => stopped ⟨there, checked, valid _ ?_⟩)
    · exact fun _ => ⟨_, rfl⟩
    · simp [GraphTx.references, GraphTx.extend, GraphTx.replaceSubject]

theorem createRelease_refuses {id : String} {input : ReleaseIn} (wellFormed : WellFormed server draw) :
    Refuses state (Api.Software.createRelease server state draw principal id input) ↔
      ¬(principal.requireCurator = .ok () ∧ releases server state draw principal (iriFor server.base .software id) input) := by
  unfold Api.Software.createRelease releases
  rw [refuses_planned]
  constructor
  · rintro refused ⟨allowed, there, checked⟩
    have planned : Api.Software.createReleasePlan server state draw principal id input =
        .ok ⟨mint server.base .release (draw.site 0), ({} : GraphTx).extend (Domain.Software.releaseQuads
          server.platform server.base (mint server.base .release (draw.site 0)) (iriFor server.base .software id)
          (draw.site 1) input principal.subject)⟩ := by
      simp [Api.Software.createReleasePlan, allowed, there, checked, bind, Except.bind, pure, Except.pure]
    refine refuses_insert ?_ (refused _ planned)
    have valid : server.platform.validIri (mint server.base .release (draw.site 0)) = true :=
      wellFormed.minted .release [0]
    exact ⟨_, by simp [describe, valid, bind, Except.bind, pure, Except.pure]; rfl⟩
  · intro stopped write planned
    unfold Api.Software.createReleasePlan at planned
    simp only [guard_ok, bind_ok, pure_ok, reduceCtorEq, imp_false] at planned
    obtain ⟨_, allowed, known, there, held, _, checked, rfl⟩ := planned
    have same : known = true := by simpa using held
    subst same
    exact absurd ⟨allowed, there, checked⟩ stopped

theorem isEmpty_describe {iri : String} : exists_ server.platform state.data iri = .ok true ↔
    describe server.platform state.data iri = .ok (describeQuads state.data iri) ∧
      (describeQuads state.data iri).isEmpty = false := by
  rw [← described_iff]
  unfold describe
  split <;> simp

theorem extend_insert (quads : List Quad) (iri graph : String) :
    ((({} : GraphTx).replaceSubject iri graph).extend quads).insert = quads := by
  simp [GraphTx.extend, GraphTx.replaceSubject]

theorem replace_references (quads : List Quad) (iri graph : String) :
    ((({} : GraphTx).replaceSubject iri graph).extend quads).references = [iri, graph] := by
  simp [GraphTx.references, GraphTx.extend, GraphTx.replaceSubject]

/-- A subject is replaced and read back. -/
theorem refuses_replace {α : Type} {iri : String} {quads : List Quad} {answer : State → AppResult α}
    (valid : server.platform.validIri iri = true) (graph : server.platform.validIri Ns.gLocal = true)
    (answers : ∃ value, answer { state with
      data := effect state.data ((({} : GraphTx).replaceSubject iri Ns.gLocal).extend quads) } = .ok value) :
    ¬Refuses state (Outcome.commit server state ((({} : GraphTx).replaceSubject iri Ns.gLocal).extend quads) answer) := by
  rw [refuses_commit (fun _ => answers), replace_references]
  simp [valid, graph]

theorem instance_typed (iri : String) (input : InstanceIn) (actor : String) (software : Option String) :
    (⟨.named iri, Ns.rdfType, .named Instance.typeSoftwareAgent, Ns.gLocal⟩ : Quad) ∈
      Instance.instanceQuads server.platform server.base iri draw input actor software := by
  have said : (Ns.rdfType, Term.named Instance.typeSoftwareAgent) ∈
      Instance.instanceStatements server.platform server.base draw input actor software := by
    unfold Instance.instanceStatements
    simp only [a, List.mem_append, List.mem_singleton, true_or]
  unfold Instance.instanceQuads
  apply List.mem_append_right
  rw [describeLocal, mem_finish]
  exact ⟨rfl, rfl, said⟩

theorem software_typed (iri : String) (input : SoftwareIn) (actor : String) (created : Option String) :
    (⟨.named iri, Ns.rdfType, .named Domain.Software.typeSoftware, Ns.gLocal⟩ : Quad) ∈
      Domain.Software.softwareQuads server.platform server.base iri draw input actor created := by
  have said : (Ns.rdfType, Term.named Domain.Software.typeSoftware) ∈
      Domain.Software.softwareStatements server.platform server.base iri draw input actor created := by
    unfold Domain.Software.softwareStatements
    simp only [a, List.mem_append, List.mem_singleton, true_or]
  unfold Domain.Software.softwareQuads
  apply List.mem_append_left
  apply List.mem_append_left
  apply List.mem_append_right
  rw [describeLocal, mem_finish]
  exact ⟨rfl, rfl, said⟩

theorem patchInstancePlan_iff {id : String} {body : Json} {write : Instances.Write} :
    Instances.patchPlan server state draw principal id body = .ok write ↔
      Instances.mayDeclare principal (iriFor server.base .instance_ id) = .ok () ∧
      isLocal server.base (iriFor server.base .instance_ id) = true ∧
      exists_ server.platform state.data (iriFor server.base .instance_ id) = .ok true ∧
      ∃ current input software,
        Instance.loadInstance (server.ctx state draw) (iriFor server.base .instance_ id) = .ok current ∧
        Instances.checkOwner principal current = .ok () ∧
        Instances.patched server current body = .ok input ∧
        Instances.resolveSoftwareFor server state.data input = .ok software ∧
        Instances.checkDeployable server state.data software input = .ok () ∧
        server.platform.enforceWrite state.data (Instance.instanceQuads server.platform server.base
          (iriFor server.base .instance_ id) draw input principal.subject software) = .ok () ∧
        write = ⟨iriFor server.base .instance_ id, Instance.replaceInstance server.platform server.base
          (iriFor server.base .instance_ id) draw input principal.subject software⟩ := by
  unfold Instances.patchPlan Instances.mayDeclare Instance.replaceInstance
  simp only [guard_ok, bind_ok, pure_ok, extend_insert, reduceCtorEq, imp_false]
  constructor
  · rintro ⟨allowed, here, known, there, held, current, loaded, _, owner, input, merged, software, resolved, _,
      deployable, _, checked, rfl⟩
    have same : known = true := by simpa using held
    subst same
    refine ⟨?_, by simpa using here, there, current, input, software, loaded, owner, merged, resolved, deployable,
      checked, rfl⟩
    by_cases own : principal.actsForInstance (iriFor server.base .instance_ id) = true
    · simp [own]
    · simpa [own] using allowed
  · rintro ⟨allowed, here, there, current, input, software, loaded, owner, merged, resolved, deployable, checked, rfl⟩
    refine ⟨?_, by simp [here], true, there, by simp, current, loaded, (), owner, input, merged, software,
      resolved, (), deployable, (), checked, rfl⟩
    by_cases own : principal.actsForInstance (iriFor server.base .instance_ id) = true
    · simp [own]
    · simpa [own] using allowed

theorem valid_of_exists {iri : String} (there : exists_ server.platform state.data iri = .ok true) :
    server.platform.validIri iri = true := (exists_true.1 there).1

theorem patchInstance_refuses {id : String} {body : Json} (wellFormed : WellFormed server draw) :
    Refuses state (Instances.patch server state draw principal id body) ↔
      ¬(Instances.mayDeclare principal (iriFor server.base .instance_ id) = .ok () ∧
        isLocal server.base (iriFor server.base .instance_ id) = true ∧
        patchesInstance server state draw principal (iriFor server.base .instance_ id) body) := by
  unfold Instances.patch Instances.settle patchesInstance
  rw [refuses_planned]
  constructor
  · rintro refused ⟨allowed, here, there, current, input, software, loaded, owner, merged, resolved, deployable, checked⟩
    refine refuses_replace (valid_of_exists there) wellFormed.graph ?_ (refused _ (patchInstancePlan_iff.2
      ⟨allowed, here, there, current, input, software, loaded, owner, merged, resolved, deployable, checked, rfl⟩))
    exact loadInstance_reads (valid_of_exists there)
      (mem_effect_of_insert (List.mem_append_right _ (instance_typed _ input _ software))) rfl rfl rfl
  · intro stopped write planned
    obtain ⟨allowed, here, there, current, input, software, loaded, owner, merged, resolved, deployable, checked, rfl⟩ :=
      patchInstancePlan_iff.1 planned
    exact absurd ⟨allowed, here, there, current, input, software, loaded, owner, merged, resolved, deployable, checked⟩
      stopped

theorem patchSoftwarePlan_iff {id : String} {body : Json} {write : Instances.Write} :
    Api.Software.patchPlan server state draw principal id body = .ok write ↔
      principal.requireCurator = .ok () ∧
      isLocal server.base (iriFor server.base .software id) = true ∧
      exists_ server.platform state.data (iriFor server.base .software id) = .ok true ∧
      ∃ current input,
        Domain.Software.loadSoftware (server.ctx state draw) (iriFor server.base .software id) = .ok current ∧
        Api.Software.patched server current body = .ok input ∧
        Api.Software.checkRegistrationBinding server input = .ok () ∧
        Api.Software.checkSync input.sync = .ok () ∧
        server.platform.enforceWrite state.data (Domain.Software.softwareQuads server.platform server.base
          (iriFor server.base .software id) draw input principal.subject
          ((propsOf state.data (iriFor server.base .software id)).str Ns.dct "created")) = .ok () ∧
        write = ⟨iriFor server.base .software id, Domain.Software.replaceSoftware server.platform server.base
          (iriFor server.base .software id) draw input principal.subject
          ((propsOf state.data (iriFor server.base .software id)).str Ns.dct "created")⟩ := by
  rw [isEmpty_describe]
  unfold Api.Software.patchPlan Domain.Software.replaceSoftware propsOf
  simp only [guard_ok, bind_ok, pure_ok, extend_insert, reduceCtorEq, imp_false, Bool.not_eq_true]
  constructor
  · rintro ⟨_, allowed, here, quads, described, said, current, loaded, input, merged, _, binding, _, fields, _, checked, rfl⟩
    have same : quads = describeQuads state.data (iriFor server.base .software id) := by
      unfold describe at described
      split at described <;> simp_all
    subst same
    exact ⟨allowed, by simpa using here, ⟨described, said⟩, current, input, loaded, merged, binding, fields, checked, rfl⟩
  · rintro ⟨allowed, here, ⟨described, said⟩, current, input, loaded, merged, binding, fields, checked, rfl⟩
    exact ⟨(), allowed, by simp [here], _, described, said, current, loaded, input, merged, (), binding, (), fields, (),
      checked, rfl⟩

theorem patchSoftware_refuses {id : String} {body : Json} (wellFormed : WellFormed server draw) :
    Refuses state (Api.Software.patch server state draw principal id body) ↔
      ¬(principal.requireCurator = .ok () ∧ isLocal server.base (iriFor server.base .software id) = true ∧
        patchesSoftware server state draw principal (iriFor server.base .software id) body) := by
  unfold Api.Software.patch Api.Software.settle patchesSoftware
  rw [refuses_planned]
  constructor
  · rintro refused ⟨allowed, here, there, current, input, loaded, merged, binding, fields, checked⟩
    refine refuses_replace (valid_of_exists there) wellFormed.graph ?_ (refused _ (patchSoftwarePlan_iff.2
      ⟨allowed, here, there, current, input, loaded, merged, binding, fields, checked, rfl⟩))
    exact loadSoftware_reads (valid_of_exists there)
      (mem_effect_of_insert (List.mem_append_right _ (software_typed _ input _ _))) rfl rfl rfl
  · intro stopped write planned
    obtain ⟨allowed, here, there, current, input, loaded, merged, binding, fields, checked, rfl⟩ :=
      patchSoftwarePlan_iff.1 planned
    exact absurd ⟨allowed, here, there, current, input, loaded, merged, binding, fields, checked⟩ stopped

theorem deleteRelease_refuses {id releaseId : String} :
    Refuses state (Api.Software.deleteRelease server state draw principal id releaseId) ↔
      ¬(principal.requireCurator = .ok () ∧ withdrawsRelease server state (iriFor server.base .software id)
        (iriFor server.base .release releaseId)) := by
  unfold Api.Software.deleteRelease withdrawsRelease propsOf
  rw [refuses_planned]
  simp only [tombstone_refuses, tombstones]
  unfold Api.Software.deleteReleasePlan Api.Software.releaseOf
  rw [isEmpty_describe]
  constructor
  · rintro refused ⟨allowed, ⟨described, said⟩, version⟩
    refine refused () ?_ ⟨described, said⟩
    simp [allowed, described, said, version, bind, Except.bind, pure, Except.pure]
  · intro stopped _ planned there
    simp only [guard_ok, bind_ok, reduceCtorEq, imp_false, Bool.not_eq_true] at planned
    obtain ⟨_, allowed, quads, described, said, version⟩ := planned
    have same : quads = describeQuads state.data (iriFor server.base .release releaseId) := by
      rw [there.1] at described
      exact (Except.ok.inj described).symm
    subst same
    refine stopped ⟨allowed, there, ?_⟩
    by_contra other
    simp [other] at version

theorem addToken_ok {ops : Ops} {row : TokenRow} :
    (∃ after, ops.addToken row = .ok after) ↔ ∀ other ∈ ops.tokens, other.id ≠ row.id ∧ other.pre ≠ row.pre := by
  unfold Ops.addToken
  split
  · rename_i taken
    rw [List.any_eq_true] at taken
    obtain ⟨other, mem, clash⟩ := taken
    refine iff_of_false (by simp) (fun apart => ?_)
    obtain ⟨id, pre⟩ := apart other mem
    exact (of_decide_eq_true clash).elim id pre
  · rename_i free
    refine iff_of_true ⟨_, rfl⟩ (fun other mem => ?_)
    by_contra clash
    apply free
    rw [List.any_eq_true]
    refine ⟨other, mem, decide_eq_true ?_⟩
    tauto

theorem mint_refuses {guard : AppResult Unit} {subject : TokenSubject} {iri what : String} {fallback : List String}
    {input : MintToken} :
    Refuses state (Tokens.settle state draw (do
      guard
      Tokens.mintPlan server state draw principal subject iri what fallback input)) ↔
      ¬(guard = .ok () ∧ mints server state draw principal iri fallback input) := by
  unfold Tokens.settle mints
  rw [refuses_planned]
  simp only [bind_ok]
  constructor
  · rintro refused ⟨allowed, there, known, ⟨expiry, lives⟩, free⟩
    let row := Ops.tokenRow server.platform draw subject (Tokens.scopesOr fallback input) input.label
      (some principal.subject) expiry
    have apart : ∀ other ∈ state.ops.tokens, other.id ≠ row.id ∧ other.pre ≠ row.pre := free
    obtain ⟨ops, added⟩ := addToken_ok.2 apart
    have planned : Tokens.mintPlan server state draw principal subject iri what fallback input = .ok (row, ops) := by
      simp [Tokens.mintPlan, there, known, lives, row, added, bind, Except.bind, pure, Except.pure]
    exact not_refuses_of_ok rfl (refused _ ⟨(), allowed, planned⟩)
  · rintro stopped ⟨row, ops⟩ ⟨_, allowed, planned⟩
    unfold Tokens.mintPlan at planned
    simp only [guard_ok, bind_ok, pure_ok, reduceCtorEq, imp_false] at planned
    obtain ⟨there, held, known, _, scopes, expiry, lives, after, added, _⟩ := planned
    have same : there = true := by simpa using known
    subst same
    have free := addToken_ok.1 ⟨after, added⟩
    exact absurd ⟨allowed, held, scopes, ⟨expiry, lives⟩, free⟩ stopped

theorem revoke_refuses {tokenId iri what : String} {of : TokenRow → Option String} {guard : AppResult Unit} :
    Refuses state (Tokens.revokeIn state draw tokenId (do
      guard
      Tokens.owned state tokenId of iri what)) ↔ ¬(guard = .ok () ∧ revokes state tokenId of iri) := by
  unfold Tokens.revokeIn revokes Tokens.owned
  rw [refuses_planned]
  simp only [bind_ok]
  constructor
  · rintro refused ⟨allowed, row, found, theirs⟩
    refine not_refuses_of_ok rfl (refused () ⟨(), allowed, ?_⟩)
    simp [found, theirs]
  · rintro stopped _ ⟨_, allowed, owned⟩
    cases found : state.ops.getToken tokenId with
    | none =>
      rw [found] at owned
      cases owned
    | some row =>
      rw [found] at owned
      refine absurd ⟨allowed, row, found, ?_⟩ stopped
      by_contra other
      simp [other] at owned

section Sync

variable {iri : String}

theorem status_references (status : SyncStatus) :
    ∀ reference ∈ (Api.Software.syncStatusTx server iri status).references, reference = Domain.Software.syncIri iri ∨
      reference = Ns.gLocal ∨ ∃ localName ∈ Api.Software.bookkeeping, reference = Ns.tar ++ localName := by
  intro reference mem
  simp only [Api.Software.syncStatusTx, Api.Software.bookkeeping, List.foldl_cons, List.foldl_nil, GraphTx.references,
    GraphTx.extend, GraphTx.replaceProperty, List.nil_append, List.cons_append, List.flatMap_cons, List.flatMap_nil,
    List.mem_cons, List.not_mem_nil, or_false] at mem ⊢
  rcases mem with h | h | h | h | h | h | h | h | h | h | h | h <;> simp [h]

theorem writeSyncStatus_valid {status : SyncStatus} (wellFormed : WellFormed server draw)
    (valid : server.platform.validIri (Domain.Software.syncIri iri) = true) :
    Api.Software.writeSyncStatus server state iri status =
      ⟨{ state with data := effect state.data (Api.Software.syncStatusTx server iri status) }, .ok ()⟩ := by
  have references : ∀ reference ∈ (Api.Software.syncStatusTx server iri status).references,
      server.platform.validIri reference = true := by
    intro reference mem
    rcases status_references status reference mem with rfl | rfl | ⟨localName, known, rfl⟩
    · exact valid
    · exact wellFormed.graph
    · exact wellFormed.terms localName known
  rw [Api.Software.writeSyncStatus, Outcome.commit, apply_of_valid references]

theorem writeSyncStatus_invalid {status : SyncStatus}
    (invalid : ¬server.platform.validIri (Domain.Software.syncIri iri) = true) :
    ∃ e, Api.Software.writeSyncStatus server state iri status = ⟨state, .error e⟩ := by
  have mem : Domain.Software.syncIri iri ∈ (Api.Software.syncStatusTx server iri status).references := by
    simp [Api.Software.syncStatusTx, Api.Software.bookkeeping, GraphTx.references, GraphTx.extend,
      GraphTx.replaceProperty]
  obtain ⟨e, failed⟩ := @apply_of_invalid _ state.data _ _ mem (by simpa using invalid)
  refine ⟨e, ?_⟩
  rw [Api.Software.writeSyncStatus, Outcome.commit, failed]

/-- Adding releases never fails: each is an insertion, and one that does not conform is skipped. -/
theorem addReleases_answers (known : List String) (place : Nat) (releases : List ReleaseIn) (state : State)
    (added : List String) :
    ∃ names, (Api.Software.addReleases server principal draw iri known place releases state added).response = .ok names := by
  induction releases generalizing place state added with
  | nil => exact ⟨added, rfl⟩
  | cons release rest ih =>
    simp only [Api.Software.addReleases]
    split
    · exact ih _ _ _
    · split
      · exact ih _ _ _
      · rw [apply_of_valid (by simp [GraphTx.references, GraphTx.extend])]
        exact ih _ _ _

theorem newReleases_answers (releases : List ReleaseIn) (state : State) :
    ∃ names, (Api.Software.newReleases server principal draw iri releases state).response = .ok names := by
  unfold Api.Software.newReleases
  split
  · exact ⟨[], rfl⟩
  · exact addReleases_answers _ _ _ _ _

/-- The type a software record is read by. -/
def softwareType (iri : String) : Quad := ⟨.named iri, Ns.rdfType, .named Domain.Software.typeSoftware, Ns.gLocal⟩

theorem status_keeps_type {status : SyncStatus} (held : softwareType iri ∈ state.data) :
    softwareType iri ∈ (Api.Software.writeSyncStatus server state iri status).state.data := by
  refine (Api.Software.writeSyncStatus_edits iri status).kept _ held rfl ?_
  rintro (⟨subject, mem, _⟩ | ⟨target, mem, _, predicate⟩)
  · simp [Api.Software.statusPrint] at mem
  · obtain ⟨term, known, rfl⟩ := List.mem_map.1 mem
    have apart : Ns.rdfType ∉ Api.Software.bookkeepingVocabulary := by decide
    have same : Ns.rdfType = term := predicate
    exact apart (same ▸ known)

theorem releases_keep_type {releases : List ReleaseIn} (held : softwareType iri ∈ state.data) :
    softwareType iri ∈ (Api.Software.newReleases server principal draw iri releases state).state.data := by
  refine (Api.Software.newReleases_edits iri releases state).kept _ held rfl ?_
  rintro (⟨subject, mem, _⟩ | ⟨target, mem, _⟩) <;> simp [Api.Software.releasesPrint] at mem

theorem andThen_ok {α β : Type} {first : Outcome α} {next : State → α → Outcome β} {value : α}
    (answers : first.response = .ok value) : first.andThen next = next first.state value := by
  rw [Outcome.andThen, answers]

theorem answered_andThen {α β : Type} (state : State) (value : α) (next : State → α → Outcome β) :
    (⟨state, .ok value⟩ : Outcome α).andThen next = next state value := rfl

theorem failed_andThen {α β : Type} (state : State) (error : AppError) (next : State → α → Outcome β) :
    (⟨state, .error error⟩ : Outcome α).andThen next = ⟨state, .error error⟩ := rfl

/-- What is written of an unreachable repository is the failure alone. -/
theorem unreachable_refuses {status : SyncStatus} {error : AppError} (wellFormed : WellFormed server draw) :
    Refuses state ((Api.Software.writeSyncStatus server state iri status).andThen
        (fun after _ => (⟨after, .error error⟩ : Outcome Api.Software.SyncAnswer))) ↔
      ¬(server.platform.validIri (Domain.Software.syncIri iri) = true ∧
        ¬SameQuads state.data (effect state.data (Api.Software.syncStatusTx server iri status))) := by
  by_cases valid : server.platform.validIri (Domain.Software.syncIri iri) = true
  · rw [writeSyncStatus_valid wellFormed valid, answered_andThen]
    simp [Refuses, Unchanged, valid]
  · obtain ⟨e, failed⟩ := @writeSyncStatus_invalid _ state _ status valid
    rw [failed, failed_andThen]
    exact iff_of_true ⟨⟨e, rfl⟩, Unchanged.refl state⟩ (fun both => valid both.1)

/-- The releases and the closing bookkeeping of a synchronisation. -/
def published (server : Server) (draw : Draw) (principal : Principal) (iri : String) (cfg : SyncStatus)
    (synced : Forge.Syncing) (state : State) : Outcome Api.Software.SyncAnswer :=
  let status := Api.Software.syncedStatus cfg draw.now synced.out.changed
  (Api.Software.newReleases server principal (draw.site 1) iri synced.out.releases state).andThen (fun state added =>
    (if added.isEmpty then (⟨state, .ok ()⟩ : Outcome Unit)
      else Api.Software.writeSyncStatus server state iri
        { status with lastChanged := status.lastChanged ++ ["releases"] }).andThen
      (fun state _ => ⟨state, do
        let software ← Domain.Software.loadSoftware (server.ctx state draw) iri
        return { software, skipped := synced.out.skipped, releasesAdded := added,
                 changed := if added.isEmpty then synced.out.changed else synced.out.changed ++ ["releases"] }⟩))

theorem recordSync_eq {cfg : SyncStatus} {created : Option String} {synced : Forge.Syncing} :
    Api.Software.recordSync server state draw principal iri cfg created synced =
      ((Outcome.planned state (Api.Software.syncPlan server state (draw.site 0) principal iri created
          (syncedInput cfg synced)) (fun tx => Outcome.commit server state tx (fun _ => .ok ()))).andThen
        (fun state _ => Api.Software.writeSyncStatus server state iri
          (Api.Software.syncedStatus cfg draw.now synced.out.changed))).andThen
        (fun state _ => published server draw principal iri cfg synced state) := rfl

/-- Once the record is written, the rest of a synchronisation is answered. -/
theorem published_answers {cfg : SyncStatus} {synced : Forge.Syncing} (wellFormed : WellFormed server draw)
    (known : server.platform.validIri iri = true)
    (valid : server.platform.validIri (Domain.Software.syncIri iri) = true) (held : softwareType iri ∈ state.data) :
    ∃ answer, (published server draw principal iri cfg synced state).response = .ok answer := by
  unfold published
  obtain ⟨names, answers⟩ := @newReleases_answers server (draw.site 1) principal iri synced.out.releases state
  have kept := @releases_keep_type server _ (draw.site 1) principal _ synced.out.releases held
  simp only []
  rw [andThen_ok answers]
  have reads (after : State) (there : softwareType iri ∈ after.data) :
      ∃ software, Domain.Software.loadSoftware (server.ctx after draw) iri = .ok software :=
    loadSoftware_reads known there rfl rfl rfl
  by_cases none_ : names.isEmpty = true
  · rw [if_pos none_, answered_andThen]
    obtain ⟨software, loaded⟩ := reads _ kept
    exact ⟨_, by simp only [loaded, bind, Except.bind, pure, Except.pure]; rfl⟩
  · rw [if_neg none_, writeSyncStatus_valid wellFormed valid, answered_andThen]
    have noted := @status_keeps_type server _ _ ({ Api.Software.syncedStatus cfg draw.now synced.out.changed with
        lastChanged := (Api.Software.syncedStatus cfg draw.now synced.out.changed).lastChanged ++ ["releases"] }) kept
    rw [writeSyncStatus_valid wellFormed valid] at noted
    obtain ⟨software, loaded⟩ := reads _ noted
    exact ⟨_, by simp only [loaded, bind, Except.bind, pure, Except.pure]; rfl⟩

theorem recordSync_refuses {cfg : SyncStatus} {created : Option String} {synced : Forge.Syncing}
    (wellFormed : WellFormed server draw) (known : server.platform.validIri iri = true) :
    Refuses state (Api.Software.recordSync server state draw principal iri cfg created synced) ↔
      ¬(server.platform.enforceWrite state.data (Domain.Software.softwareQuads server.platform server.base iri
          (draw.site 0) (syncedInput cfg synced) principal.subject created) = .ok () ∧
        (server.platform.validIri (Domain.Software.syncIri iri) = true ∨
          ¬SameQuads state.data (effect state.data (Domain.Software.replaceSoftware server.platform server.base iri
            (draw.site 0) (syncedInput cfg synced) principal.subject created)))) := by
  rw [recordSync_eq]
  cases checked : server.platform.enforceWrite state.data (Domain.Software.softwareQuads server.platform server.base iri
      (draw.site 0) (syncedInput cfg synced) principal.subject created) with
  | error e =>
    have planned : Api.Software.syncPlan server state (draw.site 0) principal iri created
        (syncedInput cfg synced) = .error e := by
      simp [Api.Software.syncPlan, Domain.Software.replaceSoftware, extend_insert, checked, bind, Except.bind]
    simp only [planned, Outcome.planned, failed_andThen]
    exact iff_of_true ⟨⟨e, rfl⟩, Unchanged.refl state⟩ (by simp)
  | ok _ =>
    have planned : Api.Software.syncPlan server state (draw.site 0) principal iri created
        (syncedInput cfg synced) =
          .ok (Domain.Software.replaceSoftware server.platform server.base iri (draw.site 0)
            (syncedInput cfg synced) principal.subject created) := by
      simp [Api.Software.syncPlan, Domain.Software.replaceSoftware, extend_insert, checked, bind, Except.bind, pure,
        Except.pure]
    have applied (data : Dataset) : Store.apply server.platform data (Domain.Software.replaceSoftware server.platform
        server.base iri (draw.site 0) (syncedInput cfg synced) principal.subject
        created) = .ok (effect data (Domain.Software.replaceSoftware server.platform server.base iri (draw.site 0)
          (syncedInput cfg synced) principal.subject created)) := by
      apply apply_of_valid
      rw [Domain.Software.replaceSoftware, replace_references]
      simp [known, wellFormed.graph]
    simp only [planned, Outcome.planned, Outcome.commit, applied, answered_andThen]
    by_cases valid : server.platform.validIri (Domain.Software.syncIri iri) = true
    · refine iff_of_false ?_ (by simp [valid])
      rw [writeSyncStatus_valid wellFormed valid, answered_andThen]
      have written : softwareType iri ∈ effect state.data (Domain.Software.replaceSoftware server.platform server.base iri
          (draw.site 0) (syncedInput cfg synced) principal.subject created) :=
        mem_effect_of_insert (List.mem_append_right _ (software_typed iri _ _ _))
      have noted := @status_keeps_type server ⟨_, state.ops⟩ _ (Api.Software.syncedStatus cfg draw.now synced.out.changed) written
      rw [writeSyncStatus_valid wellFormed valid] at noted
      obtain ⟨answer, answers⟩ := @published_answers _ _ _ principal _ cfg synced wellFormed
        known valid noted
      exact not_refuses_of_ok answers
    · obtain ⟨e, failed⟩ := @writeSyncStatus_invalid _ ⟨effect state.data (Domain.Software.replaceSoftware server.platform server.base iri (draw.site 0)
          (syncedInput cfg synced) principal.subject created), state.ops⟩ _ (Api.Software.syncedStatus cfg draw.now synced.out.changed) valid
      rw [failed, failed_andThen]
      simp [Refuses, Unchanged, valid]

end Sync

variable (server) (state) (draw) (principal)

/-- The request passes every check its endpoint makes. -/
def Admits : Action → Prop
  | .patchSoftware id body =>
    principal.requireCurator = .ok () ∧ isLocal server.base (iriFor server.base .software id) = true ∧
      patchesSoftware server state draw principal (iriFor server.base .software id) body
  | .deleteSoftware id =>
    principal.requireCurator = .ok () ∧ tombstones server state (iriFor server.base .software id)
  | .declareSoftware id input =>
    principal.requireCurator = .ok () ∧ declares server state draw (iriFor server.base .software id) input
  | .syncSoftware id forge =>
    principal.requireCurator = .ok () ∧ synchronises server state draw principal (iriFor server.base .software id) forge
  | .createRelease id input =>
    principal.requireCurator = .ok () ∧ releases server state draw principal (iriFor server.base .software id) input
  | .deleteRelease id releaseId =>
    principal.requireCurator = .ok () ∧
      withdrawsRelease server state (iriFor server.base .software id) (iriFor server.base .release releaseId)
  | .mintSoftwareToken id input =>
    Tokens.mayManageSoftware principal = .ok () ∧
      mints server state draw principal (iriFor server.base .software id) Tokens.softwareDefaults input
  | .revokeSoftwareToken id tokenId =>
    Tokens.mayManageSoftware principal = .ok () ∧
      revokes state tokenId TokenRow.softwareIri (iriFor server.base .software id)
  | .patchInstance id body =>
    Instances.mayDeclare principal (iriFor server.base .instance_ id) = .ok () ∧
      isLocal server.base (iriFor server.base .instance_ id) = true ∧
      patchesInstance server state draw principal (iriFor server.base .instance_ id) body
  | .deleteInstance id =>
    principal.requireCurator = .ok () ∧ tombstones server state (iriFor server.base .instance_ id)
  | .declareInstance id input =>
    Instances.mayDeclare principal (iriFor server.base .instance_ id) = .ok () ∧
      declares server state draw (iriFor server.base .instance_ id) input
  | .mintToken id input =>
    Tokens.mayManage principal (iriFor server.base .instance_ id) = .ok () ∧
      mints server state draw principal (iriFor server.base .instance_ id) Tokens.instanceDefaults input
  | .revokeToken id tokenId =>
    Tokens.mayManage principal (iriFor server.base .instance_ id) = .ok () ∧
      revokes state tokenId TokenRow.instanceIri (iriFor server.base .instance_ id)
  | _ => False

variable {server} {state} {draw} {principal}

/-- A check before a request. -/
theorem guarded_refuses {α : Type} {guard : AppResult Unit} {proceed : Unit → Outcome α} {passes : Prop}
    (rest : Refuses state (proceed ()) ↔ ¬passes) :
    Refuses state (Outcome.planned state guard proceed) ↔ ¬(guard = .ok () ∧ passes) := by
  rw [refuses_planned]
  constructor
  · rintro refused ⟨allowed, goes⟩
    exact rest.1 (refused () allowed) goes
  · intro stopped _ allowed
    exact rest.2 (fun goes => stopped ⟨allowed, goes⟩)

set_option linter.constructorNameAsVariable false in
theorem sync_refuses {id : String} {forge : Forge.GitHub} (wellFormed : WellFormed server draw) :
    Refuses state (Api.Software.sync server state draw principal id forge) ↔
      ¬(principal.requireCurator = .ok () ∧
        synchronises server state draw principal (iriFor server.base .software id) forge) := by
  unfold Api.Software.sync
  refine guarded_refuses ?_
  rw [refuses_planned]
  have known {existing : Model.Software} {cfg : SyncStatus} {created : Option String}
      (connected : Api.Software.syncable server state draw (iriFor server.base .software id) =
        .ok (existing, cfg, created)) : server.platform.validIri (iriFor server.base .software id) = true := by
    unfold Api.Software.syncable at connected
    simp only [bind_ok] at connected
    obtain ⟨quads, described, _⟩ := connected
    unfold describe at described
    by_contra invalid
    simp [invalid] at described
  constructor
  · rintro refused ⟨existing, cfg, created, connected, goes⟩
    have stopped := refused _ connected
    simp only [] at stopped
    cases synced : Forge.syncInto server.platform forge cfg.repo cfg.fields (Codec.softwareInFrom existing) with
    | error message =>
      rw [synced] at stopped goes
      exact (unreachable_refuses wellFormed).1 stopped goes
    | ok outcome =>
      rw [synced] at stopped goes
      exact (recordSync_refuses wellFormed (known connected)).1 stopped goes
  · rintro stopped ⟨existing, cfg, created⟩ connected
    simp only []
    cases synced : Forge.syncInto server.platform forge cfg.repo cfg.fields (Codec.softwareInFrom existing) with
    | error message =>
      refine (unreachable_refuses wellFormed).2 (fun goes => stopped ⟨existing, cfg, created, connected, ?_⟩)
      rw [synced]
      exact goes
    | ok outcome =>
      refine (recordSync_refuses wellFormed (known connected)).2
        (fun goes => stopped ⟨existing, cfg, created, connected, ?_⟩)
      rw [synced]
      exact goes

theorem mintSoftware_refuses {id : String} {input : MintToken} :
    Refuses state (Tokens.createForSoftware server state draw principal id input) ↔
      ¬(Tokens.mayManageSoftware principal = .ok () ∧
        mints server state draw principal (iriFor server.base .software id) Tokens.softwareDefaults input) := by
  unfold Tokens.createForSoftware
  exact mint_refuses

theorem mintInstance_refuses {id : String} {input : MintToken} :
    Refuses state (Tokens.create server state draw principal id input) ↔
      ¬(Tokens.mayManage principal (iriFor server.base .instance_ id) = .ok () ∧
        mints server state draw principal (iriFor server.base .instance_ id) Tokens.instanceDefaults input) := by
  unfold Tokens.create
  exact mint_refuses

theorem revokeSoftware_refuses {id tokenId : String} :
    Refuses state (Tokens.revokeForSoftware server state draw principal id tokenId) ↔
      ¬(Tokens.mayManageSoftware principal = .ok () ∧
        revokes state tokenId TokenRow.softwareIri (iriFor server.base .software id)) := by
  unfold Tokens.revokeForSoftware
  exact revoke_refuses

theorem revokeInstance_refuses {id tokenId : String} :
    Refuses state (Tokens.revoke server state draw principal id tokenId) ↔
      ¬(Tokens.mayManage principal (iriFor server.base .instance_ id) = .ok () ∧
        revokes state tokenId TokenRow.instanceIri (iriFor server.base .instance_ id)) := by
  unfold Tokens.revoke
  exact revoke_refuses

theorem deleteSoftware_refuses {id : String} :
    Refuses state (Api.Software.softDelete server state draw principal id) ↔
      ¬(principal.requireCurator = .ok () ∧ tombstones server state (iriFor server.base .software id)) := by
  unfold Api.Software.softDelete
  exact guarded_refuses tombstone_refuses

theorem deleteInstance_refuses {id : String} :
    Refuses state (Instances.softDelete server state draw principal id) ↔
      ¬(principal.requireCurator = .ok () ∧ tombstones server state (iriFor server.base .instance_ id)) := by
  unfold Instances.softDelete
  exact guarded_refuses tombstone_refuses

theorem declareSoftware_refuses {id : String} {input : CapabilityIn} (wellFormed : WellFormed server draw) :
    Refuses state (Api.Software.putCapability server state draw principal id input) ↔
      ¬(principal.requireCurator = .ok () ∧ declares server state draw (iriFor server.base .software id) input) := by
  unfold Api.Software.putCapability
  exact guarded_refuses (declare_refuses wellFormed)

theorem declareInstance_refuses {id : String} {input : CapabilityIn} (wellFormed : WellFormed server draw) :
    Refuses state (Instances.putCapability server state draw principal id input) ↔
      ¬(Instances.mayDeclare principal (iriFor server.base .instance_ id) = .ok () ∧
        declares server state draw (iriFor server.base .instance_ id) input) := by
  unfold Instances.putCapability
  exact guarded_refuses (declare_refuses wellFormed)

/-- A request that names a record fails and changes nothing exactly when its endpoint does not admit it. -/
theorem handle_refuses {action : Action} (wellFormed : WellFormed server draw) (named : targets server action ≠ []) :
    Refuses state (handle server state draw principal action) ↔ ¬Admits server state draw principal action := by
  cases action with
  | patchSoftware id body => exact refuses_forget.trans (patchSoftware_refuses wellFormed)
  | deleteSoftware id => exact deleteSoftware_refuses
  | declareSoftware id input => exact refuses_forget.trans (declareSoftware_refuses wellFormed)
  | syncSoftware id forge => exact refuses_forget.trans (sync_refuses wellFormed)
  | createRelease id input => exact refuses_forget.trans (createRelease_refuses wellFormed)
  | deleteRelease id releaseId => exact deleteRelease_refuses
  | mintSoftwareToken id input => exact refuses_forget.trans mintSoftware_refuses
  | revokeSoftwareToken id tokenId => exact revokeSoftware_refuses
  | patchInstance id body => exact refuses_forget.trans (patchInstance_refuses wellFormed)
  | deleteInstance id => exact deleteInstance_refuses
  | declareInstance id input => exact refuses_forget.trans (declareInstance_refuses wellFormed)
  | mintToken id input => exact refuses_forget.trans mintInstance_refuses
  | revokeToken id tokenId => exact revokeInstance_refuses
  | createSoftware | createInstance | announceSelf | advertise | ingest | createArtifact | createType | removePeer =>
    exact absurd rfl named

end Endpoints

section Specimen

open Specimen

theorem registry_wellFormed (draw : Draw) : WellFormed (registry []) draw := by
  refine ⟨by decide, by decide, fun kind path => ?_⟩
  have trimmed : trimSlash (registry []).base = "https://reg.example" := by decide
  have http : Library.Text.startsWith (iriOf (registry []).base kind (draw.id path)) "http" = true := by
    rw [iriOf, trimmed]
    simp [Library.Text.startsWith, String.toList_append]
  exact Bool.or_eq_true_iff.2 (Or.inl http)

/-- One deployment is registered. -/
def oneInstance : State := Library.Runs.run (step (registry [])) State.empty [byRoot "i" (.createInstance { label := "one" })]

end Specimen

end ToolArtifactRegistry.Laws
