import ToolArtifactRegistry.Auth.Binding
import ToolArtifactRegistry.Laws.Tombstone
import ToolArtifactRegistry.RegistryTokens

/-! Withdrawing a deployment silences it exactly as long as it is mute when it is withdrawn and
nothing gives it a voice again: of the three lookups that bind a credential to a record, one looks
at the tombstone. -/
namespace ToolArtifactRegistry.Laws

open Library.Rdf Library.Runs Ids Model Store Rdf Build Auth Domain Api Registry

/-- No credential that acts for the deployment is heard. -/
def Silent (server : Server) (state : State) (iri : String) : Prop :=
  ∀ credential now p, principalOf server state now credential = .ok p → p.instanceIri = some iri →
    (∀ draw input role answer, (Advertise.advertise server state draw p input role).response ≠ .ok answer) ∧
      (∀ draw event answer, (Openlineage.ingest server state draw p event).response ≠ .ok answer) ∧
      ∀ draw input answer, (Instances.announceSelf server state draw p input).response ≠ .ok answer

/-- A row that is revoked, or may only subscribe. -/
def Hushed (row : TokenRow) : Prop := row.revokedAt.isSome = true ∨ (tokenPrincipal row).isSubscribeOnly = true

/-- No token of the deployment is of use, and its record names no client. -/
structure Muted (state : State) (iri : String) : Prop where
  rows : ∀ row ∈ state.ops.tokens, row.instanceIri = some iri → Hushed row
  clients : ∀ quad ∈ state.data, quad.subject = .named iri → quad.predicate = Ns.t Ns.tar "oidcClientId" →
    quad.graph ≠ Ns.gLocal

section Heard

theorem subscribeOnly_scope {p : Principal} {scope : String} (only : p.isSubscribeOnly = true) (plain : p.roles = ∅)
    (other : scope ≠ scopeSubscribeArtifacts) : p.requireScope scope ≠ .ok () := by
  have each : ∀ held ∈ p.scopes, held = scopeSubscribeArtifacts := by
    unfold Principal.isSubscribeOnly at only
    rw [Bool.and_eq_true, decide_eq_true_eq, decide_eq_true_eq] at only
    exact only.2
  intro passes
  rcases Principal.hasScope_iff.1 (Principal.requireScope_ok.1 passes).2 with admin | held
  · rcases Principal.isAdmin_iff.1 admin with role | held
    · simp [plain] at role
    · exact absurd (each _ held) (by decide)
  · exact other (each _ held)

theorem planned_refused {α β : Type} {state : State} {plan : AppResult β} {proceed : β → Outcome α} {answer : α}
    (refused : ∀ value, plan ≠ .ok value) : (Outcome.planned state plan proceed).response ≠ .ok answer := by
  cases planned : plan with
  | error e => simp [Outcome.planned]
  | ok value => exact absurd planned (refused value)

variable {server : Server} {state : State} {p : Principal}

/-- A subscriber is heard by none of the three. -/
theorem subscriber_refused (only : p.isSubscribeOnly = true) (plain : p.roles = ∅) :
    (∀ draw input role answer, (Advertise.advertise server state draw p input role).response ≠ .ok answer) ∧
      (∀ draw event answer, (Openlineage.ingest server state draw p event).response ≠ .ok answer) ∧
      ∀ draw input answer, (Instances.announceSelf server state draw p input).response ≠ .ok answer := by
  refine ⟨fun draw input role answer => planned_refused ?_, fun draw event answer => planned_refused ?_,
    fun draw input answer => planned_refused ?_⟩
  · intro instanceIri admitted
    unfold Advertise.admitted at admitted
    obtain ⟨_, scope, _⟩ := Library.Results.bind_ok.1 admitted
    refine subscribeOnly_scope only plain ?_ scope
    cases role <;> decide
  · intro instanceIri admitted
    unfold Openlineage.admitted at admitted
    obtain ⟨_, scope, _⟩ := Library.Results.bind_ok.1 admitted
    exact subscribeOnly_scope only plain (by decide) scope
  · intro write accepted
    have announced := (Instances.announcePlan_ok accepted).1
    simp [(Instances.announcer_ok announced).2.1] at only

/-- A withdrawn deployment that is mute is silent. -/
theorem silent_of_muted {iri : String} (withdrawn : Withdrawn state.data iri) (muted : Muted state iri) :
    Silent server state iri := by
  intro credential now p accepted acts
  rcases Binding.acts_cases accepted acts with ⟨row, mem, live, named, rfl⟩ | ⟨issuer, claims, reached⟩
  · rcases muted.rows row mem named with revoked | only
    · unfold Ops.live at live
      rw [Bool.and_eq_true, Option.isNone_iff_eq_none] at live
      rw [live.1] at revoked
      cases revoked
    · exact subscriber_refused only rfl
  · cases reached with
    | declared client pinned admits held =>
      obtain ⟨value, _, quad⟩ := Binding.mem_recordsWith.1 client
      exact absurd rfl (muted.clients _ quad rfl rfl)
    | registered subject live pinned admits held =>
      rw [withdrawn.isTombstoned] at live
      cases live

end Heard

section Orderly

variable (server : Server)

/-- The record a request withdraws. -/
def withdraws : Action → List String
  | .deleteSoftware id => [iriFor server.base .software id]
  | .deleteInstance id => [iriFor server.base .instance_ id]
  | .deleteRelease _ releaseId => [iriFor server.base .release releaseId]
  | _ => []

/-- The scopes a request mints for a record. -/
def mintsFor (iri : String) : Action → List String
  | .mintToken id input =>
    if iriFor server.base .instance_ id = iri then Tokens.scopesOr Tokens.instanceDefaults input else []
  | _ => []

/-- A deployment is withdrawn when it is mute, and from then on it is given no token but a
subscriber's, and its IRI is not drawn for a new record. -/
def Orderly (iri : String) (state : State) : Event → Prop
  | .request credential draw action => ∀ p, principalOf server state draw.now credential = .ok p →
      (iri ∈ withdraws server action → p.requireCurator = .ok () → Muted state iri) ∧
      (Withdrawn state.data iri → mint server.base .instance_ (draw.site 0) ≠ iri ∧
        (Tokens.mayManage p iri = .ok () → ∀ scope ∈ mintsFor server iri action, scope = scopeSubscribeArtifacts))
  | _ => True

instance (row : TokenRow) : Decidable (Hushed row) := inferInstanceAs (Decidable (_ ∨ _))

instance (state : State) (iri : String) : Decidable (Muted state iri) :=
  decidable_of_iff ((∀ row ∈ state.ops.tokens, row.instanceIri = some iri → Hushed row) ∧
      ∀ quad ∈ state.data.quads, quad.subject = .named iri → quad.predicate = Ns.t Ns.tar "oidcClientId" →
        quad.graph ≠ Ns.gLocal)
    ⟨fun ⟨rows, clients⟩ => ⟨rows, clients⟩, fun muted => ⟨muted.rows, muted.clients⟩⟩

instance (iri : String) (state : State) : (event : Event) → Decidable (Orderly server iri state event)
  | .request credential draw _ =>
    inferInstanceAs (Decidable (∀ p, principalOf server state draw.now credential = .ok p → _ ∧ _))
  | .health .. | .fetchStub .. | .knowPeer _ | .reindex _ => isTrue trivial

end Orderly

section Steps

variable {server : Server} {state : State} {draw : Draw} {p : Principal} {action : Action} {iri : String}

theorem vocabularies_unmarked (keeps : withdraws server action = []) :
    ∀ vocabulary ∈ vocabularies action, Ns.t Ns.tar "tombstoned" ∉ vocabulary := by
  cases action with
  | deleteSoftware | deleteInstance | deleteRelease => simp [withdraws] at keeps
  | _ =>
    simp only [vocabularies]
    decide

/-- Only a withdrawal puts the marker on a record. -/
theorem marked_by_withdrawal (before : ¬Withdrawn state.data iri)
    (after : Withdrawn (perform server state draw p action).data iri) :
    iri ∈ withdraws server action ∧ p.requireCurator = .ok () := by
  have spoken : Spoken (actionPrint server state draw p action).blocks (marker iri) :=
    ((perform_edits server state draw p action).new _ after rfl).resolve_left before
  have here {target : String} {plan : AppResult GraphTx} (said : Spoken
      (accepted plan (Instances.tombstonePrint target)).blocks (marker iri)) : iri = target := by
    unfold accepted at said
    split at said
    · obtain ⟨_, block, mem, subject, _⟩ := said
      rw [List.mem_singleton.1 mem] at subject
      exact Node.named.inj (List.mem_singleton.1 subject)
    · simp [Spoken] at said
  cases action with
  | deleteSoftware id =>
    simp only [actionPrint] at spoken
    cases curator : p.requireCurator with
    | error e => simp [curator, accepted, Spoken] at spoken
    | ok _ =>
      simp only [curator, accepted] at spoken
      exact ⟨List.mem_singleton.2 (here spoken), rfl⟩
  | deleteInstance id =>
    simp only [actionPrint] at spoken
    cases curator : p.requireCurator with
    | error e => simp [curator, accepted, Spoken] at spoken
    | ok _ =>
      simp only [curator, accepted] at spoken
      exact ⟨List.mem_singleton.2 (here spoken), rfl⟩
  | deleteRelease id releaseId =>
    simp only [actionPrint] at spoken
    cases plan : Api.Software.deleteReleasePlan server state p id releaseId with
    | error e => simp [plan, accepted, Spoken] at spoken
    | ok _ =>
      simp only [plan, accepted] at spoken
      unfold Api.Software.deleteReleasePlan at plan
      obtain ⟨_, curator, _⟩ := Library.Results.bind_ok.1 plan
      exact ⟨List.mem_singleton.2 (here spoken), curator⟩
  | _ => exact absurd spoken ((action_uses server state draw p _).silent
      (vocabularies_unmarked (show withdraws server _ = [] from rfl)))

theorem instanceQuads_client {target : String} {input : InstanceIn} {actor : String} {software : Option String}
    {quad : Quad} (mem : quad ∈ Instance.instanceQuads server.platform server.base target draw input actor software)
    (client : quad.predicate = Ns.t Ns.tar "oidcClientId") : quad.subject = .named target := by
  rcases Footprint.mem_instanceQuads server.platform server.base mem with own | supports
  · exact subject_of_mem_local own
  · exact absurd (client ▸ supports.predicate) (by decide)

theorem instance_unmarked {target : String} {input : InstanceIn} {actor : String} {software : Option String}
    (other : String) :
    marker other ∉ Instance.instanceQuads server.platform server.base target draw input actor software := by
  have foreign : Ns.t Ns.tar "tombstoned" ∉ Footprint.instanceVocabulary := by decide
  intro mem
  obtain ⟨_, block, inBlocks, _, predicate⟩ := Instances.instanceQuads_spoken mem
  simp only [recordBlocks, List.mem_cons, List.not_mem_nil, or_false] at inBlocks
  rcases inBlocks with rfl | rfl
  · exact foreign predicate
  · exact support_unmarked predicate

/-- What takes the place of a record carries no marker. -/
theorem replacement_unmarked {data : Dataset} {target : String} {input : InstanceIn} {actor : String}
    {software : Option String} : ¬Withdrawn (effect data
      (Instance.replaceInstance server.platform server.base target draw input actor software)) target := by
  intro withdrawn
  have own : Store.Owns data Ns.gLocal (.named target) (.named target) := Relation.ReflTransGen.refl
  exact instance_unmarked target (gone_of_replaced rfl own withdrawn)

theorem stamped_unmarked {data : Dataset} {target now : String} {input : InstanceIn} {actor : String}
    {software : Option String} : ¬Withdrawn (effect data (Instances.stampSeen server
      (Instance.replaceInstance server.platform server.base target draw input actor software) target now)) target := by
  have foreign : Ns.t Ns.tar "tombstoned" ≠ Ns.t Ns.tar "lastSeenAt" := by decide
  intro withdrawn
  have own : Store.Owns data Ns.gLocal (.named target) (.named target) := Relation.ReflTransGen.refl
  rcases List.mem_append.1 (gone_of_deleted rfl rfl rfl own withdrawn) with written | stamp
  · refine instance_unmarked target (?_ : marker target ∈ Instance.instanceQuads server.platform server.base target
      draw input actor software)
    simpa [Instance.replaceInstance, GraphTx.extend, GraphTx.replaceSubject, GraphTx.replaceProperty] using written
  · exact foreign (only_datetime server.platform Ns.tar "lastSeenAt" now _ (mem_finish.1 stamp).2.2)

theorem client_not_seen : Ns.t Ns.tar "oidcClientId" ≠ Ns.t Ns.tar "lastSeenAt" := by decide

/-- A client id is written of a record that is new, or in place of all that was said of it. -/
theorem client_written {quad : Quad} (mem : quad ∈ (perform server state draw p action).data)
    (graph : quad.graph = Ns.gLocal) (client : quad.predicate = Ns.t Ns.tar "oidcClientId") :
    quad ∈ state.data ∨ quad.subject = .named (mint server.base .instance_ (draw.site 0)) ∨
      ∃ target, quad.subject = .named target ∧ ¬Withdrawn (perform server state draw p action).data target := by
  cases action with
  | createInstance input =>
    rcases Outcome.planned_commit_cases server state (Instances.createPlan server state draw p input)
      (fun write => write.tx) (fun write after => Instance.loadInstance (server.ctx after draw) write.iri) with
      same | ⟨write, accepted, changed⟩
    · exact Or.inl (by simpa [perform, Instances.create, Instances.settle, same] using mem)
    · obtain ⟨bound, software, _, _, rfl⟩ := Instances.createPlan_ok accepted
      simp only [perform, Instances.create, Instances.settle, changed] at mem
      refine (mem_effect_cases mem).imp_right (fun inserted => Or.inl ?_)
      exact instanceQuads_client (by simpa [GraphTx.extend] using inserted) client
  | patchInstance id body =>
    rcases Outcome.planned_commit_cases server state (Instances.patchPlan server state draw p id body)
      (fun write => write.tx) (fun write after => Instance.loadInstance (server.ctx after draw) write.iri) with
      same | ⟨write, accepted, changed⟩
    · exact Or.inl (by simpa [perform, Instances.patch, Instances.settle, same] using mem)
    · obtain ⟨_, input, software, _, _, _, _, _, rfl⟩ := Instances.patchPlan_ok accepted
      simp only [perform, Instances.patch, Instances.settle, changed] at mem ⊢
      refine (mem_effect_cases mem).imp_right (fun inserted => Or.inr ⟨_, ?_, replacement_unmarked⟩)
      exact instanceQuads_client (by simpa [Instance.replaceInstance, GraphTx.extend, GraphTx.replaceSubject]
        using inserted) client
  | announceSelf input =>
    rcases Outcome.planned_commit_cases server state (Instances.announcePlan server state draw p input)
      (fun write => write.tx) (fun write after => Instance.loadInstance (server.ctx after draw) write.iri) with
      same | ⟨write, accepted, changed⟩
    · exact Or.inl (by simpa [perform, Instances.announceSelf, Instances.settle, same] using mem)
    · simp only [perform, Instances.announceSelf, Instances.settle, changed] at mem ⊢
      obtain ⟨_, ⟨target, found, again⟩ | ⟨absent, first⟩⟩ := Instances.announcePlan_ok accepted
      · obtain ⟨current, software, _, _, rfl⟩ := Instances.reannouncePlan_ok again
        refine (mem_effect_cases mem).imp_right (fun inserted =>
          Or.inr ⟨target, ?_, stamped_unmarked⟩)
        have written := Instances.stamped_insert inserted (client ▸ client_not_seen)
        exact instanceQuads_client (by simpa [Instance.replaceInstance, GraphTx.extend, GraphTx.replaceSubject]
          using written) client
      · obtain ⟨named, software, _, _, rfl⟩ := Instances.registerPlan_ok first
        refine (mem_effect_cases mem).imp_right (fun inserted => Or.inl ?_)
        have written := Instances.stamped_insert inserted (client ▸ client_not_seen)
        exact instanceQuads_client (by simpa [GraphTx.extend] using written) client
  | _ =>
    left
    refine ((perform_edits server state draw p _).new quad mem graph).resolve_right ?_
    refine (action_uses server state draw p _).silent ?_
    rw [client]
    simp only [vocabularies]
    decide

theorem withdrawal_vocabulary (withdrawn : iri ∈ withdraws server action) :
    vocabularies action = [Instances.tombstoneVocabulary] := by
  cases action with
  | deleteSoftware | deleteInstance | deleteRelease => rfl
  | _ => simp [withdraws] at withdrawn

theorem hushed_revoke {row : TokenRow} (hushed : Hushed row) (now id : String) : Hushed (Ops.revoke now id row) := by
  unfold Ops.revoke
  split
  · exact Or.inl rfl
  · exact hushed

/-- A row minted with a subscriber's scope only. -/
theorem hushed_subscriber {subject : TokenSubject} {scopes : List String} {label createdBy expiry : Option String}
    (some_ : scopes ≠ []) (each : ∀ scope ∈ scopes, scope = scopeSubscribeArtifacts) :
    Hushed (Ops.tokenRow server.platform draw subject scopes label createdBy expiry) := by
  have word : Library.Text.Word scopeSubscribeArtifacts := by decide
  have held : (tokenPrincipal (Ops.tokenRow server.platform draw subject scopes label createdBy expiry)).scopes =
      scopes.toFinset := by
    simp only [tokenPrincipal, Ops.tokenRow]
    rw [Library.Text.splitWhitespace_join (fun scope mem => each scope mem ▸ word)]
  right
  unfold Principal.isSubscribeOnly
  rw [Bool.and_eq_true, decide_eq_true_eq, decide_eq_true_eq, held]
  exact ⟨by simpa using some_, by simpa using each⟩

theorem scopesOr_ne_nil (input : MintToken) : Tokens.scopesOr Tokens.instanceDefaults input ≠ [] := by
  unfold Tokens.scopesOr
  split
  · decide
  · rename_i given
    simpa using given

theorem rows_hushed {before after : List TokenRow} (tokens : TokenStep server draw p action before after)
    (hushed : ∀ row ∈ before, row.instanceIri = some iri → Hushed row)
    (minted : ∀ row, Mints server draw p row action → row.instanceIri = some iri → Hushed row) :
    ∀ row ∈ after, row.instanceIri = some iri → Hushed row := by
  cases tokens with
  | same => exact hushed
  | minted row mints =>
    intro other mem named
    rcases List.mem_append.1 mem with old | new
    · exact hushed other old named
    · rw [List.mem_singleton.1 new] at named ⊢
      exact minted row mints named
  | revoked id =>
    intro other mem named
    obtain ⟨row, old, rfl⟩ := List.mem_map.1 mem
    refine hushed_revoke (hushed row old ?_) _ _
    unfold Ops.revoke at named
    split at named <;> exact named

/-- A row minted for the deployment is a subscriber's when its request is quiet. -/
theorem minted_hushed (quiet : Tokens.mayManage p iri = .ok () →
    ∀ scope ∈ mintsFor server iri action, scope = scopeSubscribeArtifacts) {row : TokenRow} (mints : Mints server draw p row action) (named : row.instanceIri = some iri) : Hushed row := by
  cases action with
  | mintToken id input =>
    obtain ⟨managed, _, expiry, rfl⟩ := mints
    obtain rfl : iriFor server.base .instance_ id = iri := Option.some.inj named
    have quiet := quiet managed
    rw [mintsFor, if_pos rfl] at quiet
    exact hushed_subscriber (scopesOr_ne_nil input) quiet
  | mintSoftwareToken id input =>
    obtain ⟨_, _, expiry, rfl⟩ := mints
    cases named
  | _ => exact mints.elim

/-- An orderly request leaves a withdrawn deployment mute. -/
theorem perform_muted (muted : Withdrawn state.data iri → Muted state iri)
    (withdrawing : iri ∈ withdraws server action → p.requireCurator = .ok () → Muted state iri)
    (orderly : Withdrawn state.data iri → mint server.base .instance_ (draw.site 0) ≠ iri ∧
      (Tokens.mayManage p iri = .ok () → ∀ scope ∈ mintsFor server iri action, scope = scopeSubscribeArtifacts))
    (after : Withdrawn (perform server state draw p action).data iri) :
    Muted (perform server state draw p action) iri := by
  by_cases before : Withdrawn state.data iri
  · obtain ⟨fresh, quiet⟩ := orderly before
    refine ⟨rows_hushed (perform_tokens action) (muted before).rows (fun row => minted_hushed quiet), ?_⟩
    intro quad mem subject client graph
    rcases client_written mem graph client with held | new | ⟨target, same, unmarked⟩
    · exact (muted before).clients quad held subject client graph
    · exact fresh (Node.named.inj (new.symm.trans subject))
    · exact unmarked (Node.named.inj (same.symm.trans subject) ▸ after)
  · obtain ⟨withdrawn, curator⟩ := marked_by_withdrawal before after
    have mute := withdrawing withdrawn curator
    refine ⟨rows_hushed (perform_tokens action) mute.rows ?_, ?_⟩
    · intro row mints
      cases action with
      | mintToken | mintSoftwareToken => simp [withdraws] at withdrawn
      | _ => exact mints.elim
    · intro quad mem subject client graph
      have foreign : ∀ vocabulary ∈ vocabularies action, quad.predicate ∉ vocabulary := by
        rw [withdrawal_vocabulary withdrawn, client]
        decide
      rcases (perform_edits server state draw p action).new quad mem graph with held | spoken
      · exact mute.clients quad held subject client graph
      · exact (action_uses server state draw p action).silent foreign spoken

/-- What is no request marks nothing, names no client and touches no token. -/
theorem other_muted {event : Event} (other : ∀ credential draw action, event ≠ .request credential draw action)
    (muted : Withdrawn state.data iri → Muted state iri) (after : Withdrawn (step server state event).data iri) :
    Muted (step server state event) iri := by
  have quiet : ∀ quad ∈ (step server state event).data, quad.graph = Ns.gLocal →
      quad.predicate = Ns.t Ns.tar "tombstoned" ∨ quad.predicate = Ns.t Ns.tar "oidcClientId" → quad ∈ state.data := by
    intro quad mem graph predicate
    refine ((step_edits server state event).new quad mem graph).resolve_right ?_
    cases event with
    | request credential draw action => exact absurd rfl (other credential draw action)
    | health now target verdict =>
      have unmarked : Ns.t Ns.tar "tombstoned" ∉ Health.recorded.map (Ns.t Ns.tar) := by decide
      have unnamed : Ns.t Ns.tar "oidcClientId" ∉ Health.recorded.map (Ns.t Ns.tar) := by decide
      rintro ⟨_, block, inBlocks, _, known⟩
      rw [List.mem_singleton.1 inBlocks] at known
      rcases predicate with same | same
      · exact unmarked (same ▸ known)
      · exact unnamed (same ▸ known)
    | _ => simp [Registry.print, Spoken]
  have tokens : (step server state event).ops.tokens = state.ops.tokens := by
    obtain ⟨peers, queue, same⟩ := @background_ops server state event other
    rw [same]
  have mute := muted (quiet _ after rfl (Or.inl rfl))
  refine ⟨tokens ▸ mute.rows, ?_⟩
  intro quad mem subject client graph
  exact mute.clients quad (quiet quad mem graph (Or.inr client)) subject client graph

theorem step_muted {event : Event} (muted : Withdrawn state.data iri → Muted state iri)
    (orderly : Orderly server iri state event) (after : Withdrawn (step server state event).data iri) :
    Muted (step server state event) iri := by
  cases event with
  | request credential draw action =>
    simp only [step, requested] at after ⊢
    cases accepted : principalOf server state draw.now credential with
    | error e =>
      rw [accepted] at after
      exact muted after
    | ok p =>
      rw [accepted] at after
      obtain ⟨withdrawing, quiet⟩ := orderly p accepted
      exact perform_muted muted withdrawing quiet after
  | _ => exact other_muted (by simp) muted after

end Steps

section Runs

variable {server : Server}

end Runs

section Specimen

open Specimen

def deployed : List Event :=
  [byRoot "i" (.createInstance { label := "one" }), byRoot "t" (.mintToken "https://reg.example/instance/ia" {})]

def revokedFirst : List Event :=
  deployed ++ [byRoot "r" (.revokeToken "https://reg.example/instance/ia" "t"),
    byRoot "d" (.deleteInstance "https://reg.example/instance/ia")]

def withdrawnOnly : State :=
  run (step (registry [])) State.empty (deployed ++ [byRoot "d" (.deleteInstance "https://reg.example/instance/ia")])

def deployment : Principal :=
  { credential := .localToken, instanceIri := some "https://reg.example/instance/ia", softwareIri := none,
    subject := "https://reg.example/instance/ia", displayName := none,
    scopes := {scopeAdvertiseProduce, scopeAdvertiseConsume}, roles := ∅, issuer := none }

end Specimen

end ToolArtifactRegistry.Laws
