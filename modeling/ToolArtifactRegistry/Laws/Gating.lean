import ToolArtifactRegistry.Auth.Authority
import ToolArtifactRegistry.Auth.Binding
import ToolArtifactRegistry.Laws.Authoring
import ToolArtifactRegistry.Mcp.Call

/-! The tools beside the REST interface. What is asked before a tool is called keeps back no more than the request behind it
would be refused, but for a deployment that declares what it can do. -/
namespace ToolArtifactRegistry.Laws.Gating

open Library.Runs Library.Serde Ids Model Auth Domain Api Registry Mcp.Call
open Authoring (unplanned first_refused)

/-- The request a tool that writes becomes. -/
inductive Leads : String → Registry.Action → Prop
  | registerArtifactType (input : Types.ArtifactTypeIn) : Leads "register_artifact_type" (.createType input)
  | registerSoftware (input : SoftwareIn) : Leads "register_software" (.createSoftware input)
  | updateSoftware (id : String) (body : Json) : Leads "update_software" (.patchSoftware id body)
  | addRelease (id : String) (input : ReleaseIn) : Leads "add_release" (.createRelease id input)
  | declareSoftware (id : String) (input : CapabilityIn) : Leads "declare_capability" (.declareSoftware id input)
  | declareInstance (id : String) (input : CapabilityIn) : Leads "declare_capability" (.declareInstance id input)
  | registerInstance (input : InstanceIn) : Leads "register_instance" (.createInstance input)
  | produced (input : AdvertiseIn) : Leads "advertise_produced" (.advertise input .produced)
  | consumed (input : AdvertiseIn) : Leads "advertise_consumed" (.advertise input .consumed)

/-- A call of a tool that writes, with the request it becomes. -/
structure ToolCall where
  credential : Option String
  draw : Draw
  name : String
  action : Registry.Action

section Calls

variable (server : Server) (readOnly publicRead : Bool) (guards : State → ToolCall → Bool)

/-- The principal and the gate come before the guard on vocabularies, and all three before the request. -/
def called (state : State) (call : ToolCall) : State :=
  match principalOf server state call.draw.now call.credential with
  | .error _ => state
  | .ok p =>
    if p.isAnonymous && !publicRead then state
    else match admission p readOnly publicRead call.name with
      | .error _ => state
      | .ok _ => if guards state call then state else requested server state call.credential call.draw call.action

/-- The request alone. -/
def sent (state : State) (call : ToolCall) : State :=
  if readOnly || guards state call then state else requested server state call.credential call.draw call.action

/-- A deployment that may not write records declares its own capability. -/
def OwnDeclaration (state : State) (call : ToolCall) : Prop :=
  ∃ p id input, principalOf server state call.draw.now call.credential = .ok p ∧ call.action = .declareInstance id input ∧
    p.actsForInstance (iriFor server.base .instance_ id) = true ∧ p.isCurator = false ∧
    p.hasScope scopeRegisterSoftware = false

/-- The call is of a tool with the request it leads to, and no deployment declares its own capability by it. -/
def Mirrored (state : State) (call : ToolCall) : Prop :=
  Leads call.name call.action ∧ ¬OwnDeclaration server state call

end Calls

section Refusals

variable {server : Server} {state : State} {draw : Draw} {p : Principal}

theorem curator_gate (shut : Gate.curator.allows p true = false) (done : Unit) : p.requireCurator ≠ .ok done := by
  intro passes
  have may := (Principal.requireCurator_ok.1 passes).2
  rw [Gate.allows, Bool.or_eq_false_iff] at shut
  rw [shut.1, shut.2] at may
  simp at may

theorem scope_gate {scope : String} (shut : (Gate.instanceScope scope).allows p true = false) :
    p.requireScope scope ≠ .ok () ∨ ∀ iri, p.requireInstance ≠ .ok iri := by
  rw [Gate.allows, Bool.and_eq_false_iff] at shut
  rcases shut with unbound | lacks
  · right
    intro iri passes
    rw [(Principal.requireInstance_ok.1 passes).2] at unbound
    cases unbound
  · left
    intro passes
    rw [(Principal.requireScope_ok.1 passes).2] at lacks
    cases lacks

theorem advertise_refused {input : AdvertiseIn} {role : Advertise.Role}
    (shut : (Gate.instanceScope role.scope).allows p true = false) :
    perform server state draw p (.advertise input role) = state := by
  refine unplanned (fun value accepted => ?_)
  obtain ⟨done, held, accepted⟩ := Library.Results.bind_ok.1 accepted
  obtain ⟨iri, bound, _⟩ := Library.Results.bind_ok.1 accepted
  rcases scope_gate shut with lacks | unbound
  · exact lacks held
  · exact unbound iri bound

/-- A request whose tool is refused would change nothing. -/
theorem shut_unchanged {name : String} {action : Registry.Action} {entry : Mcp.Call.Entry} (leads : Leads name action)
    (found : find name = some entry) (shut : entry.gate.allows p true = false)
    (other : ∀ id input, action = .declareInstance id input → p.actsForInstance (iriFor server.base .instance_ id) = false) :
    perform server state draw p action = state := by
  have gate {wanted : Gate} (same : (find name).map Mcp.Call.Entry.gate = some wanted) : wanted.allows p true = false := by
    rw [found] at same
    obtain rfl := Option.some.inj same
    exact shut
  cases leads with
  | registerArtifactType input => exact unplanned (first_refused (curator_gate (gate (by decide))))
  | registerSoftware input => exact unplanned (first_refused (curator_gate (gate (by decide))))
  | updateSoftware id body => exact unplanned (first_refused (curator_gate (gate (by decide))))
  | addRelease id input => exact unplanned (first_refused (curator_gate (gate (by decide))))
  | declareSoftware id input => exact unplanned (curator_gate (gate (by decide)))
  | declareInstance id input =>
    refine unplanned ?_
    unfold Instances.mayDeclare
    rw [other id input rfl]
    exact curator_gate (gate (by decide))
  | registerInstance input =>
    have lacks : (p.isCurator || p.hasScope scopeRegisterInstance) = false :=
      @gate (.curatorOrScope scopeRegisterInstance) (by decide)
    rw [Bool.or_eq_false_iff] at lacks
    refine unplanned ?_
    unfold Instances.createPlan
    rw [lacks.1]
    refine first_refused (fun done passes => ?_)
    have held := (Principal.requireScope_ok.1 passes).2
    rw [lacks.2] at held
    cases held
  | produced input => exact advertise_refused (gate (by decide))
  | consumed input => exact advertise_refused (gate (by decide))

theorem leads_write {name : String} {action : Registry.Action} (leads : Leads name action) :
    ∃ entry, find name = some entry ∧ entry.write = true ∧ entry.gate ≠ .read := by
  cases leads <;> exact ⟨_, rfl, by decide, by decide⟩

/-- Whether anybody may read does not open a tool that writes. -/
theorem allows_write {gate : Gate} (writes : gate ≠ .read) (publicRead : Bool) :
    gate.allows p publicRead = gate.allows p true := by
  cases gate with
  | read => exact absurd rfl writes
  | curator => rfl
  | curatorOrScope scope => rfl
  | instanceScope scope => rfl

end Refusals

section Runs

variable {server : Server} {readOnly publicRead : Bool} {guards : State → ToolCall → Bool} {state : State} {call : ToolCall}

theorem called_sent (mirrored : Mirrored server state call) :
    called server readOnly publicRead guards state call = sent server readOnly guards state call := by
  obtain ⟨leads, foreign⟩ := mirrored
  obtain ⟨entry, found, writes, gate⟩ := leads_write leads
  unfold called sent requested
  cases accepted : principalOf server state call.draw.now call.credential with
  | error e => simp
  | ok p =>
    have nobody (anonymous : p.isAnonymous = true) : perform server state call.draw p call.action = state := by
      have known : p = Principal.anonymous := by
        cases Binding.principalOf_ok accepted with
        | anonymous => rfl
        | root => cases anonymous
        | row row _ _ => cases anonymous
        | claims issuer claims _ mapped =>
          rcases Authority.principalFromClaims_cases mapped with ⟨binding, _, rfl⟩ | ⟨_, software, rfl⟩
          · simp [Principal.isAnonymous, Jwt.boundPrincipal] at anonymous
          · simp only [Principal.isAnonymous, Jwt.unboundPrincipal] at anonymous
            split at anonymous <;> simp at anonymous
      exact Authoring.bystander_unchanged (Or.inl known) call.action
    simp only []
    by_cases hidden : (p.isAnonymous && !publicRead) = true
    · rw [if_pos hidden, nobody (Bool.and_eq_true_iff.1 hidden).1, ite_self]
    · rw [if_neg hidden]
      unfold admission
      rw [found]
      simp only [writes, Bool.true_and, allows_write gate publicRead]
      cases readOnly with
      | true => simp
      | false =>
        cases open_ : entry.gate.allows p true with
        | true => simp
        | false =>
          have unchanged : perform server state call.draw p call.action = state := by
            refine shut_unchanged leads found open_ (fun id input declares => ?_)
            rw [Bool.eq_false_iff]
            intro acts
            have capability : call.name = "declare_capability" := by
              rw [declares] at leads
              generalize call.name = name at leads
              cases leads
              rfl
            have curator : (p.isCurator || p.hasScope scopeRegisterSoftware) = false := by
              rw [capability] at found
              have entry_ : entry = ⟨"declare_capability", true, .curator⟩ := Option.some.inj (found.symm.trans (by decide))
              rw [entry_] at open_
              exact open_
            rw [Bool.or_eq_false_iff] at curator
            exact foreign ⟨p, id, input, accepted, declares, acts, curator.1, curator.2⟩
          simp [unchanged]

end Runs

section Specimen

open Specimen

/-- Called with authority, and without. -/
def twoCalls : List ToolCall :=
  [⟨some "root", draw "s", "register_software", .createSoftware { name := "tool" }⟩,
    ⟨none, draw "n", "add_release", .createRelease "sa" { version := "1" }⟩]

end Specimen

end ToolArtifactRegistry.Laws.Gating
