import ToolArtifactRegistry.Domain.Fields
import ToolArtifactRegistry.Laws.Announce

/-! A credential bound to one software makes deployments of it alone exactly as long as no repeat
announcement says otherwise: the binding is enforced where a record is first made. -/
namespace ToolArtifactRegistry.Laws

open Library.Rdf Library.Runs Library.Serde Ids Model Store Rdf Build Auth Domain Api Registry

def ofSoftware : String := Ns.t Ns.tar "instanceOf"

/-- Every local statement of what software a record is a deployment of names this one. -/
def OfOnly (software : String) (data : Dataset) (iri : String) : Prop :=
  ∀ quad ∈ data, quad.subject = .named iri → quad.predicate = ofSoftware → quad.graph = Ns.gLocal →
    Props.termValue quad.object = software

/-- The record is said to be a deployment of something. -/
def Deployed (data : Dataset) (iri : String) : Prop :=
  ∃ quad ∈ data, quad.subject = .named iri ∧ quad.predicate = ofSoftware ∧ quad.graph = Ns.gLocal

theorem OfOnly.same {software iri : String} {before after : Dataset} (same : Same before after iri)
    (only : OfOnly software before iri) : OfOnly software after iri :=
  fun quad held subject predicate graph => only quad ((same quad subject graph).1 held) subject predicate graph

/-- The record changes at some step of the run. -/
def Changes (server : Server) (iri : String) : State → List Event → Prop
  | _, [] => False
  | state, event :: rest => ¬Same state.data (step server state event).data iri ∨ Changes server iri (step server state event) rest

section

variable (server : Server)

/-- A registration or an announcement by a credential bound to the software. -/
inductive Registers (software : String) (state : State) : Event → Prop where
  | create (credential : Option String) (draw : Draw) (input : InstanceIn)
      (bound : ∀ p, principalOf server state draw.now credential = .ok p → p.softwareIri = some software) :
      Registers software state (.request credential draw (.createInstance input))
  | announce (credential : Option String) (draw : Draw) (input : SelfAnnounceIn)
      (bound : ∀ p, principalOf server state draw.now credential = .ok p → p.softwareIri = some software) :
      Registers software state (.request credential draw (.announceSelf input))

def announcedInput : Action → Option SelfAnnounceIn
  | .announceSelf input => some input
  | _ => none

/-- The record a request is about, when there is one already. -/
def about (state : State) (p : Principal) (action : Action) : Option String :=
  (announcedInput action).bind (Instances.existingRecord state.data p)

/-- A repeat announcement names this software, or none while the record reads as a deployment of it. -/
def Loyal (software : String) (state : State) (draw : Draw) (p : Principal) (action : Action) : Prop :=
  ∀ input, announcedInput action = some input → ∀ iri, Instances.existingRecord state.data p input = some iri →
    ∀ current, Instance.loadInstance (server.ctx state draw) iri = .ok current →
      (input.software.map (iriFor server.base .software)).or current.software = some software

/-- The only deployment a request touches is the one it is about. -/
def TouchesAbout (state : State) (draw : Draw) (p : Principal) (action : Action) : Prop :=
  ∀ iri, Deployed state.data iri → Touches (actionPrint server state draw p action) state.data iri →
    about state p action = some iri

def Faithful (software : String) (state : State) : Event → Prop
  | .request credential draw action => ∀ p, principalOf server state draw.now credential = .ok p →
      Loyal server software state draw p action ∧ TouchesAbout server state draw p action
  | _ => True

instance (data : Dataset) (iri : String) : Decidable (Deployed data iri) :=
  inferInstanceAs (Decidable (∃ quad ∈ data.quads, _ ∧ _ ∧ _))

theorem Deployed.subject {data : Dataset} {iri : String} (deployed : Deployed data iri) : iri ∈ subjects data := by
  obtain ⟨quad, held, subject, _⟩ := deployed
  exact List.mem_filterMap.2 ⟨quad, held, by rw [subject]; rfl⟩

instance (state : State) (draw : Draw) (p : Principal) (action : Action) :
    Decidable (TouchesAbout server state draw p action) :=
  decidable_of_iff (∀ iri ∈ subjects state.data, Deployed state.data iri →
      Touches (actionPrint server state draw p action) state.data iri → about state p action = some iri)
    ⟨fun holds iri deployed => holds iri deployed.subject deployed, fun holds iri _ => holds iri⟩

instance (software : String) (state : State) (draw : Draw) (p : Principal) (action : Action) :
    Decidable (Loyal server software state draw p action) :=
  inferInstanceAs (Decidable (∀ input, announcedInput action = some input →
    ∀ iri, Instances.existingRecord state.data p input = some iri →
      ∀ current, Instance.loadInstance (server.ctx state draw) iri = .ok current → _ = _))

instance (software : String) (state : State) : (event : Event) → Decidable (Faithful server software state event)
  | .request credential draw _ =>
    inferInstanceAs (Decidable (∀ p, principalOf server state draw.now credential = .ok p → _ ∧ _))
  | .health .. | .fetchStub .. | .knowPeer _ | .reindex _ => isTrue trivial

end

section Written

variable {server : Server} {software iri : String} {draw : Draw} {input : InstanceIn} {actor : String}

theorem termValue_link {platform : Platform} {ns localName target : String} {object : Term}
    (mem : object ∈ (link platform ns localName target).map Prod.snd) : Props.termValue object = target := by
  unfold link at mem
  split at mem
  · simp at mem
  · split at mem
    · rw [List.mem_singleton.1 mem]
      rfl
    · rw [List.mem_singleton.1 mem]
      rfl

/-- A record is written with the software it is given. -/
theorem instanceQuads_software {quad : Quad} (mem : quad ∈ Instance.instanceQuads server.platform server.base iri draw
    input actor (some software)) (predicate : quad.predicate = ofSoftware) :
    quad.subject = .named iri ∧ Props.termValue quad.object = software := by
  have foreign : ofSoftware ∉ Footprint.supportVocabulary := by decide
  rcases Footprint.mem_instanceQuads server.platform server.base mem with own | supports
  · obtain ⟨subject, _, said⟩ := mem_finish.1 own
    refine ⟨subject, ?_⟩
    have field := Fields.instance_said server.platform server.base draw input actor (some software)
      (show (ofSoftware, optLink server.platform Ns.tar "instanceOf" (some software)) ∈ _ by
        simp only [Fields.instanceFields, ofSoftware, Option.some_or, List.mem_cons, true_or, or_true])
    have given : quad.object ∈ (optLink server.platform Ns.tar "instanceOf" (some software)).map Prod.snd := by
      rw [← field, mem_said, ← predicate]
      exact said
    exact termValue_link given
  · exact absurd (predicate ▸ supports.predicate) foreign

theorem resolve_http {data : Dataset} (named : input.software = some software) (http : isHttp software = true) :
    Instances.resolveSoftwareFor server data input = .ok (some software) := by
  have some_ : software ≠ "" := by
    rintro rfl
    exact absurd http (by decide)
  have kept : nonEmpty (some software) = some software := by simp [nonEmpty, Option.filter, some_]
  simp [Instances.resolveSoftwareFor, named, kept, iriFor, http]

variable {state : State} {p : Principal} {action : Action}

theorem bindSoftware_named {given registered : InstanceIn} (bound : p.softwareIri = some software)
    (allowed : Instances.bindSoftware p given = .ok registered) : registered.software = some software := by
  unfold Instances.bindSoftware at allowed
  rw [bound] at allowed
  simp only [] at allowed
  split at allowed
  · split at allowed
    · cases allowed
    · cases allowed
      rfl
  · cases allowed
    rfl

theorem authorised_named {clientId named : String} {claimed : Option String} (bound : p.softwareIri = some software)
    (authorised : Instances.authorisedSoftware server p clientId claimed = .ok named) : named = software := by
  unfold Instances.authorisedSoftware at authorised
  rw [bound] at authorised
  cases claimed with
  | none =>
    cases authorised
    rfl
  | some claimed =>
    simp only [] at authorised
    split at authorised
    · cases authorised
    · cases authorised
      rfl

/-- After a registration or an announcement, a statement of a record's software was there before and
is not of the record the request is about, or it names the software of the credential. -/
theorem software_written (bound : p.softwareIri = some software) (http : isHttp software = true)
    (loyal : Loyal server software state draw p action)
    (kind : (∃ input, action = .createInstance input) ∨ ∃ input, action = .announceSelf input) {quad : Quad}
    (mem : quad ∈ (perform server state draw p action).data) (predicate : quad.predicate = ofSoftware)
    (graph : quad.graph = Ns.gLocal) :
    (perform server state draw p action).data = state.data ∨
      (quad ∈ state.data ∧ ∀ iri, about state p action = some iri → quad.subject ≠ .named iri) ∨
      Props.termValue quad.object = software := by
  have unseen : quad.predicate ≠ Ns.t Ns.tar "lastSeenAt" := predicate ▸ (by decide)
  rcases kind with ⟨input, rfl⟩ | ⟨input, rfl⟩
  · rcases Outcome.planned_commit_cases server state (Instances.createPlan server state draw p input)
      (fun write => write.tx) (fun write after => Instance.loadInstance (server.ctx after draw) write.iri) with
      same | ⟨write, accepted, changed⟩
    · exact Or.inl (congrArg State.data same)
    · obtain ⟨registered, resolved, allowed, resolves, rfl⟩ := Instances.createPlan_ok accepted
      simp only [perform, Instances.create, Instances.settle, changed] at mem
      have named : (Instances.nameRelease server registered).software = some software :=
        show registered.software = some software from bindSoftware_named bound allowed
      rw [resolve_http named http] at resolves
      cases resolves
      rcases mem_effect_cases mem with before | inserted
      · exact Or.inr (Or.inl ⟨before, fun iri there => absurd there.symm (Option.some_ne_none iri)⟩)
      · exact Or.inr (Or.inr (instanceQuads_software (by simpa [GraphTx.extend] using inserted) predicate).2)
  · rcases Outcome.planned_commit_cases server state (Instances.announcePlan server state draw p input)
      (fun write => write.tx) (fun write after => Instance.loadInstance (server.ctx after draw) write.iri) with
      same | ⟨write, accepted, changed⟩
    · exact Or.inl (congrArg State.data same)
    · simp only [perform, Instances.announceSelf, Instances.settle, changed] at mem
      obtain ⟨_, ⟨target, found, again⟩ | ⟨absent, first⟩⟩ := Instances.announcePlan_ok accepted
      · obtain ⟨current, resolved, loaded, resolves, rfl⟩ := Instances.reannouncePlan_ok again
        rw [resolve_http (loyal input rfl target found current loaded) http] at resolves
        cases resolves
        by_cases here : quad.subject = .named target
        · have own : Store.Owns state.data Ns.gLocal (.named target) quad.subject := here ▸ Relation.ReflTransGen.refl
          have inserted := Instances.stamped_insert (gone_of_deleted rfl rfl graph own mem) unseen
          exact Or.inr (Or.inr (instanceQuads_software (by simpa [Instance.replaceInstance, GraphTx.extend,
            GraphTx.replaceSubject] using inserted) predicate).2)
        · rcases mem_effect_cases mem with before | inserted
          · refine Or.inr (Or.inl ⟨before, fun iri there => ?_⟩)
            rw [about, announcedInput, Option.bind_some, found] at there
            exact Option.some.inj there ▸ here
          · have written := Instances.stamped_insert inserted unseen
            exact Or.inr (Or.inr (instanceQuads_software (by simpa [Instance.replaceInstance, GraphTx.extend,
              GraphTx.replaceSubject] using written) predicate).2)
      · obtain ⟨named, resolved, authorised, resolves, rfl⟩ := Instances.registerPlan_ok first
        have same : named = software := authorised_named bound authorised
        subst same
        rw [resolve_http rfl http] at resolves
        cases resolves
        rcases mem_effect_cases mem with before | inserted
        · refine Or.inr (Or.inl ⟨before, fun iri there => ?_⟩)
          rw [about, announcedInput, Option.bind_some, absent] at there
          cases there
        · have written := Instances.stamped_insert inserted unseen
          exact Or.inr (Or.inr (instanceQuads_software (by simpa [GraphTx.extend] using written) predicate).2)

end Written

section Runs

variable {server : Server} {software iri : String}

/-- What a faithful step changes is a deployment of its software alone. -/
theorem step_bound {state : State} {event : Event} (http : isHttp software = true)
    (registers : Registers server software state event) (faithful : Faithful server software state event)
    (changed : ¬Same state.data (step server state event).data iri) : OfOnly software (step server state event).data iri := by
  have settled {credential : Option String} {draw : Draw} {action : Action}
      (bound : ∀ p, principalOf server state draw.now credential = .ok p → p.softwareIri = some software)
      (faithful : Faithful server software state (.request credential draw action))
      (kind : (∃ input, action = .createInstance input) ∨ ∃ input, action = .announceSelf input)
      (changed : ¬Same state.data (step server state (.request credential draw action)).data iri) :
      OfOnly software (step server state (.request credential draw action)).data iri := by
    have touches : Touches (print server state (.request credential draw action)) state.data iri := by
      by_contra apart
      exact changed (step_same apart)
    intro quad mem subject predicate graph
    simp only [step, requested, print] at mem changed touches
    cases accepted : principalOf server state draw.now credential with
    | error e =>
      rw [accepted] at changed
      exact absurd (Same.refl _ _) changed
    | ok p =>
      rw [accepted] at mem changed touches
      obtain ⟨loyal, only⟩ := faithful p accepted
      rcases software_written (bound p accepted) http loyal kind mem predicate graph with same | ⟨before, apart⟩ | named
      · simp only [] at changed
        rw [same] at changed
        exact absurd (Same.refl _ _) changed
      · exact absurd subject (apart iri (only iri ⟨quad, before, subject, predicate, graph⟩ touches))
      · exact named
  cases registers with
  | create credential draw input bound => exact settled bound faithful (Or.inl ⟨input, rfl⟩) changed
  | announce credential draw input bound => exact settled bound faithful (Or.inr ⟨input, rfl⟩) changed

/-- Registrations and announcements by a credential bound to a software leave every record they
change a deployment of that software alone. -/
theorem bound_deployments {start : State} {events : List Event} (http : isHttp software = true)
    (registers : Meets (step server) (Registers server software) start events)
    (faithful : Meets (step server) (Faithful server software) start events) (changes : Changes server iri start events) :
    OfOnly software (run (step server) start events).data iri := by
  have settled : OfOnly software start.data iri ∨ Changes server iri start events := Or.inr changes
  clear changes
  induction events generalizing start with
  | nil => exact settled.resolve_right id
  | cons event rest ih =>
    refine ih registers.2 faithful.2 ?_
    by_cases same : Same start.data (step server start event).data iri
    · rcases settled with only | changed | later
      · exact Or.inl (only.same same)
      · exact absurd same changed
      · exact Or.inr later
    · exact Or.inl (step_bound http registers.1 faithful.1 same)

end Runs

section Specimen

open Specimen

/-- Two software, and a key that registers deployments of the first. -/
def keyed : State :=
  run (step (registry [])) State.empty
    [byRoot "a" (Laws.software "one" []), byRoot "b" (Laws.software "two" []),
      byRoot "t" (.mintSoftwareToken "https://reg.example/software/aa" {})]

def withKey (label : String) (action : Action) : Event := .request (some "tar_ta_tb") (draw label) action

def announcing (software : Option String) : Action := .announceSelf { software := software, instanceKey := some "main" }

def deployedOf (software : String) : Quad :=
  ⟨.named "https://reg.example/instance/ia", ofSoftware, .named software, Ns.gLocal⟩

/-- The key, as the registry reads it, is one of the first software. -/
def heldByFirst (state : State) (label : String) : Prop := ∀ p,
  principalOf (registry []) state (draw label).now (some "tar_ta_tb") = .ok p → p.softwareIri = some "https://reg.example/software/aa"

instance (state : State) (label : String) : Decidable (heldByFirst state label) := inferInstanceAs (Decidable (∀ p,
  principalOf (registry []) state (draw label).now (some "tar_ta_tb") = .ok p → p.softwareIri = some "https://reg.example/software/aa"))

theorem own_deployments :
    OfOnly "https://reg.example/software/aa" (run (step (registry [])) keyed
      [withKey "c" (.createInstance { label := "desk" }), withKey "i" (announcing none), withKey "j" (announcing none)]).data
      "https://reg.example/instance/ia" := by
  have evaluated : heldByFirst keyed "c" ∧
      heldByFirst (step (registry []) keyed (withKey "c" (.createInstance { label := "desk" }))) "i" ∧
      heldByFirst (run (step (registry [])) keyed
        [withKey "c" (.createInstance { label := "desk" }), withKey "i" (announcing none)]) "j" ∧
      Meets (step (registry [])) (Faithful (registry []) "https://reg.example/software/aa") keyed
        [withKey "c" (.createInstance { label := "desk" }), withKey "i" (announcing none), withKey "j" (announcing none)] ∧
      ¬(deployedOf "https://reg.example/software/aa" ∈ (run (step (registry [])) keyed
          [withKey "c" (.createInstance { label := "desk" }), withKey "i" (announcing none)]).data ↔
        deployedOf "https://reg.example/software/aa" ∈
          (step (registry []) keyed (withKey "c" (.createInstance { label := "desk" }))).data) := by
    decide
  obtain ⟨created, announced, repeated, faithful, changed⟩ := evaluated
  refine bound_deployments (by decide) ⟨?_, ?_, ?_, trivial⟩ faithful ?_
  · exact Registers.create _ _ _ created
  · exact Registers.announce _ _ _ announced
  · exact Registers.announce _ _ _ repeated
  · exact Or.inr (Or.inl (fun same => changed (same (deployedOf "https://reg.example/software/aa") rfl rfl)))

/-- The key announces its deployment a second time, as one of the other software. -/
theorem repeat_names_another :
    Meets (step (registry [])) (Registers (registry []) "https://reg.example/software/aa") keyed
        [withKey "i" (announcing none), withKey "j" (announcing (some "https://reg.example/software/ba"))] ∧
      Changes (registry []) "https://reg.example/instance/ia" keyed
        [withKey "i" (announcing none), withKey "j" (announcing (some "https://reg.example/software/ba"))] ∧
      ¬OfOnly "https://reg.example/software/aa" (run (step (registry [])) keyed
        [withKey "i" (announcing none), withKey "j" (announcing (some "https://reg.example/software/ba"))]).data
        "https://reg.example/instance/ia" := by
  have evaluated : heldByFirst keyed "i" ∧ heldByFirst (step (registry []) keyed (withKey "i" (announcing none))) "j" ∧
      ¬(deployedOf "https://reg.example/software/aa" ∈ (step (registry []) keyed (withKey "i" (announcing none))).data ↔
        deployedOf "https://reg.example/software/aa" ∈ keyed.data) ∧
      deployedOf "https://reg.example/software/ba" ∈ (run (step (registry [])) keyed
        [withKey "i" (announcing none), withKey "j" (announcing (some "https://reg.example/software/ba"))]).data := by
    decide
  obtain ⟨announced, repeated, changed, named⟩ := evaluated
  refine ⟨⟨?_, ?_, trivial⟩, Or.inl (fun same => ?_), fun only => ?_⟩
  · exact Registers.announce _ _ _ announced
  · exact Registers.announce _ _ _ repeated
  · exact changed (same (deployedOf "https://reg.example/software/aa") rfl rfl)
  · exact absurd (only (deployedOf "https://reg.example/software/ba") named rfl rfl rfl) (by decide)

end Specimen

end ToolArtifactRegistry.Laws
