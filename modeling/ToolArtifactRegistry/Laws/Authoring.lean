import ToolArtifactRegistry.Laws.Specimen

/-! Who writes into the local graph, and in which words. A caller without authority is as if it had never called; and each
local statement was said by an accepted request or a probe of the run, in the vocabulary that such a request has. -/
namespace ToolArtifactRegistry.Laws.Authoring

open Library.Rdf Library.Runs Library.Serde Ids Model Store Auth Domain Api Registry

/-- A caller who may read, or look after its own subscriptions, and nothing else. -/
def Bystander (p : Principal) : Prop :=
  p = Principal.anonymous ∨ (p.isSubscribeOnly = true ∧ Role.admin ∉ p.roles ∧ Role.curator ∉ p.roles)

instance (p : Principal) : Decidable (Bystander p) := inferInstanceAs (Decidable (_ ∨ _))

section Refused

variable {server : Server} {state : State} {draw : Draw} {p : Principal}

theorem Bystander.scopes (idle : Bystander p) {scope : String} (held : scope ∈ p.scopes) :
    scope = scopeSubscribeArtifacts := by
  rcases idle with rfl | ⟨only, _⟩
  · cases held
  · unfold Principal.isSubscribeOnly at only
    rw [Bool.and_eq_true, decide_eq_true_eq, decide_eq_true_eq] at only
    exact only.2 scope held

theorem Bystander.not_admin (idle : Bystander p) : p.isAdmin = false := by
  rw [Bool.eq_false_iff]
  intro admin
  rcases Principal.isAdmin_iff.1 admin with role | held
  · rcases idle with rfl | ⟨_, roles, _⟩
    · cases role
    · exact roles role
  · exact absurd (idle.scopes held) (by decide)

theorem Bystander.not_curator (idle : Bystander p) : p.isCurator = false := by
  unfold Principal.isCurator
  rw [idle.not_admin, Bool.false_or, decide_eq_false_iff_not]
  rcases idle with rfl | ⟨_, _, roles⟩
  · simp [Principal.anonymous]
  · exact roles

theorem Bystander.lacks (idle : Bystander p) {scope : String} (other : scope ≠ scopeSubscribeArtifacts) :
    p.hasScope scope = false := by
  unfold Principal.hasScope
  rw [idle.not_admin, Bool.false_or, decide_eq_false_iff_not]
  exact fun held => other (idle.scopes held)

theorem Bystander.no_deployment (idle : Bystander p) (iri : String) : p.actsForInstance iri = false := by
  rcases idle with rfl | ⟨only, _⟩
  · rfl
  · simp [Principal.actsForInstance, only]

theorem Bystander.curator_refused (idle : Bystander p) (done : Unit) : p.requireCurator ≠ .ok done := by
  intro passes
  have may := (Principal.requireCurator_ok.1 passes).2
  rw [idle.not_curator, idle.lacks (by decide)] at may
  simp at may

theorem Bystander.scope_refused (idle : Bystander p) {scope : String} (other : scope ≠ scopeSubscribeArtifacts)
    (done : Unit) :
    p.requireScope scope ≠ .ok done := by
  intro passes
  have may := (Principal.requireScope_ok.1 passes).2
  rw [idle.lacks other] at may
  cases may

theorem Bystander.admin_refused (idle : Bystander p) (done : Unit) : p.requireAdmin ≠ .ok done := by
  intro passes
  have may := (Principal.requireAdmin_ok.1 passes).2
  rw [idle.not_admin] at may
  cases may

theorem Bystander.announcer_refused (idle : Bystander p) (client : String) : Instances.announcer p ≠ .ok client := by
  intro announces
  rcases idle with rfl | ⟨only, _⟩
  · cases announces
  · have heard := (Instances.announcer_ok announces).2.1
    rw [only] at heard
    cases heard

theorem Bystander.tokens_refused (idle : Bystander p) (iri : String) (done : Unit) : Tokens.mayManage p iri ≠ .ok done := by
  unfold Tokens.mayManage
  rw [idle.not_admin, idle.not_curator, idle.no_deployment]
  intro passes
  cases passes

theorem Bystander.softwareTokens_refused (idle : Bystander p) (done : Unit) : Tokens.mayManageSoftware p ≠ .ok done := by
  unfold Tokens.mayManageSoftware
  rw [idle.not_admin, idle.not_curator]
  intro passes
  cases passes

/-- A plan that begins with a check that fails. -/
theorem unplanned {α β : Type} {plan : AppResult β} {proceed : β → Outcome α} (refused : ∀ value, plan ≠ .ok value) :
    (Outcome.planned state plan proceed).state = state := by
  cases planned : plan with
  | error e => rfl
  | ok value => exact absurd planned (refused value)

theorem first_refused {α β : Type} {check : AppResult α} {rest : α → AppResult β} (refused : ∀ done, check ≠ .ok done) :
    ∀ value, (check >>= rest) ≠ .ok value := by
  intro value accepted
  obtain ⟨done, passes, _⟩ := Library.Results.bind_ok.1 accepted
  exact refused done passes

/-- A bystander's request leaves graph and tables as they are, whatever it asks for. -/
theorem bystander_unchanged (idle : Bystander p) (action : Action) : perform server state draw p action = state := by
  cases action with
  | createSoftware input => exact unplanned (first_refused idle.curator_refused)
  | patchSoftware id body => exact unplanned (first_refused idle.curator_refused)
  | deleteSoftware id => exact unplanned idle.curator_refused
  | declareSoftware id input => exact unplanned idle.curator_refused
  | syncSoftware id forge => exact unplanned idle.curator_refused
  | createRelease id input => exact unplanned (first_refused idle.curator_refused)
  | deleteRelease id releaseId => exact unplanned (first_refused idle.curator_refused)
  | createInstance input =>
    refine unplanned ?_
    unfold Instances.createPlan
    rw [idle.not_curator]
    exact first_refused (idle.scope_refused (by decide))
  | patchInstance id body =>
    refine unplanned ?_
    unfold Instances.patchPlan
    simp only [idle.no_deployment, Bool.not_false, if_true]
    exact first_refused idle.curator_refused
  | deleteInstance id => exact unplanned idle.curator_refused
  | declareInstance id input =>
    refine unplanned ?_
    unfold Instances.mayDeclare
    rw [idle.no_deployment]
    exact idle.curator_refused
  | announceSelf input => exact unplanned (first_refused idle.announcer_refused)
  | mintToken id input => exact unplanned (first_refused (idle.tokens_refused _))
  | revokeToken id tokenId => exact unplanned (first_refused (idle.tokens_refused _))
  | mintSoftwareToken id input => exact unplanned (first_refused idle.softwareTokens_refused)
  | revokeSoftwareToken id tokenId => exact unplanned (first_refused idle.softwareTokens_refused)
  | advertise input role =>
    refine unplanned (first_refused (idle.scope_refused ?_))
    cases role <;> decide
  | ingest event => exact unplanned (first_refused (idle.scope_refused (by decide)))
  | createArtifact input =>
    refine unplanned ?_
    unfold Artifacts.createPlan
    rw [idle.not_curator]
    exact first_refused (idle.scope_refused (by decide))
  | createType input => exact unplanned (first_refused idle.curator_refused)
  | removePeer id => exact unplanned idle.admin_refused

end Refused

section Unheard

variable (server : Server)

/-- A request nobody with authority makes: its credential is refused, or it is a bystander's. -/
def unheard (state : State) : Event → Bool
  | .request credential draw _ =>
    match principalOf server state draw.now credential with
    | .ok p => decide (Bystander p)
    | .error _ => true
  | _ => false

/-- A run without such requests. -/
def heard : State → List Event → List Event
  | _, [] => []
  | state, event :: rest =>
    if unheard server state event then heard state rest else event :: heard (step server state event) rest

variable {server}

theorem unheard_same {state : State} {event : Event} (silent : unheard server state event = true) :
    step server state event = state := by
  cases event with
  | request credential draw action =>
    simp only [unheard] at silent
    simp only [step, requested]
    cases accepted : principalOf server state draw.now credential with
    | error e => rfl
    | ok p =>
      rw [accepted] at silent
      exact bystander_unchanged (of_decide_eq_true silent) action
  | _ => cases silent

end Unheard

section Authored

variable (server : Server)

/-- A statement an event may make: one of an authorised caller in the vocabulary of its request, or the verdict of a
probe. -/
def Says (state : State) (quad : Quad) : Event → Prop
  | .request credential draw action => ∃ p, principalOf server state draw.now credential = .ok p ∧ ¬Bystander p ∧
      ∃ vocabulary ∈ vocabularies action, quad.predicate ∈ vocabulary
  | .health _ iri _ => quad.subject = .named iri ∧ quad.predicate ∈ Health.recorded.map (Ns.t Ns.tar)
  | _ => False

variable {server}

/-- What is new in the local graph was said by the event. -/
theorem step_says {state : State} {event : Event} {quad : Quad} (held : quad ∈ (step server state event).data)
    (graph : quad.graph = Ns.gLocal) (new : quad ∉ state.data) : Says server state quad event := by
  have spoken := ((step_edits server state event).new quad held graph).resolve_left new
  have listened : unheard server state event ≠ true := fun silent => new (unheard_same silent ▸ held)
  cases event with
  | request credential draw action =>
    simp only [unheard] at listened
    simp only [Registry.print] at spoken
    cases accepted : principalOf server state draw.now credential with
    | error e =>
      rw [accepted] at listened
      exact absurd rfl listened
    | ok p =>
      rw [accepted] at listened spoken
      obtain ⟨_, block, mem, _, predicate⟩ := spoken
      exact ⟨p, accepted, fun idle => listened (decide_eq_true idle), block.vocabulary,
        action_uses server state draw p action block mem, predicate⟩
  | health now iri verdict =>
    obtain ⟨_, block, mem, subject, predicate⟩ := spoken
    rw [List.mem_singleton.1 mem] at subject predicate
    exact ⟨List.mem_singleton.1 subject, predicate⟩
  | _ =>
    obtain ⟨_, block, mem, _⟩ := spoken
    exact absurd mem List.not_mem_nil

/-- And none is lost but to an event that replaces its subject's owner or resets its property. -/
theorem local_dropped {start : State} {events : List Event} {quad : Quad} (held : quad ∈ start.data)
    (graph : quad.graph = Ns.gLocal) (lost : quad ∉ (run (step server) start events).data) :
    ∃ before event after, events = before ++ event :: after ∧
      unheard server (run (step server) start before) event = false ∧
      (Registry.print server (run (step server) start before) event).Drops (run (step server) start before).data quad := by
  induction events generalizing start with
  | nil => exact absurd held lost
  | cons event rest ih =>
    by_cases kept : quad ∈ (step server start event).data
    · obtain ⟨before, culprit, after, rfl, listened, drops⟩ := ih kept lost
      exact ⟨event :: before, culprit, after, rfl, listened, drops⟩
    · refine ⟨[], event, rest, rfl, ?_, ?_⟩
      · rw [run_nil, Bool.eq_false_iff]
        intro silent
        rw [unheard_same silent] at kept
        exact kept held
      · rw [run_nil]
        by_contra spared
        exact kept ((step_edits server start event).kept quad held graph spared)

end Authored

section Specimen

open Specimen

def oneTool : List Event :=
  [byRoot "s" (.createSoftware { name := "tool" }),
    .health "2026-01-01T00:00:00Z" "urn:x" ⟨"up", "responded 200"⟩]

def toolName : Quad := ⟨.named "https://reg.example/software/sa", Ns.t Ns.schema "name", .simple "tool", Ns.gLocal⟩

/-- Withdrawn of its name by a change of it. -/
def renamed : List Event :=
  [byRoot "p" (.patchSoftware "https://reg.example/software/sa" (.object [("name", .string "other")]))]

theorem toolName_dropped : ∃ before event after, renamed = before ++ event :: after ∧
    unheard (registry []) (run (step (registry [])) (run (step (registry [])) State.empty oneTool) before) event = false ∧
    (Registry.print (registry [])
      (run (step (registry [])) (run (step (registry [])) State.empty oneTool) before) event).Drops
      (run (step (registry [])) (run (step (registry [])) State.empty oneTool) before).data toolName :=
  local_dropped (by decide) rfl (by decide)

end Specimen

end ToolArtifactRegistry.Laws.Authoring
