import ToolArtifactRegistry.RegistryPrints

/-! What each step of the registry does to its tables: most leave them, and the tokens are minted and revoked. -/
namespace ToolArtifactRegistry.Registry

open Library.Rdf Library.Serde Ids Model Store Auth Domain Api

/-- An outcome leaves the tables of the state it started from. -/
def KeepsOps {α : Type} (state : State) (outcome : Outcome α) : Prop := outcome.state.ops = state.ops

namespace KeepsOps

variable {α β : Type} {server : Server} {state : State}

theorem commit (tx : GraphTx) (answer : State → AppResult α) : KeepsOps state (Outcome.commit server state tx answer) := by
  unfold KeepsOps Outcome.commit
  split <;> rfl

theorem planned {plan : AppResult β} {proceed : β → Outcome α} (each : ∀ value, KeepsOps state (proceed value)) :
    KeepsOps state (Outcome.planned state plan proceed) := by
  cases plan with
  | error e => rfl
  | ok value => exact each value

theorem andThen {first : Outcome α} {next : State → α → Outcome β} (before : KeepsOps state first)
    (after : ∀ state value, KeepsOps state (next state value)) : KeepsOps state (first.andThen next) := by
  unfold Outcome.andThen
  split
  · exact (after first.state _).trans before
  · exact before

end KeepsOps

/-- The requests that write a table. -/
def writesTables : Action → Bool
  | .mintToken _ _ | .revokeToken _ _ | .mintSoftwareToken _ _ | .revokeSoftwareToken _ _ => true
  | .advertise _ _ | .ingest _ | .createArtifact _ | .removePeer _ => true
  | _ => false

section

variable {server : Server} {state : State} {draw : Draw} {principal : Principal}

theorem tombstone_ops (iri : String) : KeepsOps state (Instances.tombstone server state draw principal iri) :=
  KeepsOps.planned (fun _ => KeepsOps.commit _ _)

theorem addReleases_ops (iri : String) (known : List String) (place : Nat) (releases : List ReleaseIn) (state : State)
    (added : List String) :
    KeepsOps state (Api.Software.addReleases server principal draw iri known place releases state added) := by
  induction releases generalizing place state added with
  | nil => rfl
  | cons release rest ih =>
    simp only [Api.Software.addReleases]
    split
    · exact ih _ _ _
    · split
      · exact ih _ _ _
      · split
        · rfl
        · exact ih _ ⟨_, state.ops⟩ _

theorem recordSync_ops (iri : String) (cfg : SyncStatus) (created : Option String) (synced : Forge.Syncing) :
    KeepsOps state (Api.Software.recordSync server state draw principal iri cfg created synced) := by
  have released (state : State) : KeepsOps state
      (Api.Software.newReleases server principal (draw.site 1) iri synced.out.releases state) := by
    unfold Api.Software.newReleases
    split
    · rfl
    · exact addReleases_ops iri _ 0 synced.out.releases state []
  unfold Api.Software.recordSync
  refine KeepsOps.andThen (KeepsOps.andThen (KeepsOps.planned (fun _ => KeepsOps.commit _ _))
    (fun _ _ => KeepsOps.commit _ _)) (fun state _ => KeepsOps.andThen (released state) (fun state added => ?_))
  refine KeepsOps.andThen ?_ (fun _ _ => rfl)
  split
  · rfl
  · exact KeepsOps.commit _ _

theorem sync_ops (id : String) (forge : Forge.GitHub) :
    KeepsOps state (Api.Software.sync server state draw principal id forge) := by
  unfold Api.Software.sync
  cases principal.requireCurator with
  | error e => rfl
  | ok _ =>
    simp only [Outcome.planned]
    cases Api.Software.syncable server state draw (iriFor server.base .software id) with
    | error e => rfl
    | ok connected =>
      obtain ⟨existing, cfg, created⟩ := connected
      simp only []
      cases Forge.syncInto server.platform forge cfg.repo cfg.fields (Codec.softwareInFrom existing) with
      | error message => exact KeepsOps.andThen (KeepsOps.commit _ _) (fun _ _ => rfl)
      | ok synced => exact recordSync_ops _ cfg created synced

/-- Any other request leaves the tables as they are. -/
theorem perform_ops {action : Action} (quiet : writesTables action = false) :
    (perform server state draw principal action).ops = state.ops := by
  have written {α β : Type} {plan : AppResult β} {tx : β → GraphTx} {answer : β → State → AppResult α} :
      KeepsOps state (Outcome.planned state plan (fun value => Outcome.commit server state (tx value) (answer value))) :=
    KeepsOps.planned (fun _ => KeepsOps.commit _ _)
  cases action with
  | createSoftware input => exact written
  | patchSoftware id body => exact written
  | deleteSoftware id => exact KeepsOps.planned (fun _ => tombstone_ops _)
  | declareSoftware id input => exact KeepsOps.planned (fun _ => written)
  | syncSoftware id forge => exact sync_ops id forge
  | createRelease id input => exact written
  | deleteRelease id releaseId => exact KeepsOps.planned (fun _ => tombstone_ops _)
  | createInstance input => exact written
  | patchInstance id body => exact written
  | deleteInstance id => exact KeepsOps.planned (fun _ => tombstone_ops _)
  | declareInstance id input => exact KeepsOps.planned (fun _ => written)
  | announceSelf input => exact written
  | createType input => exact written
  | mintToken | revokeToken | mintSoftwareToken | revokeSoftwareToken => cases quiet
  | advertise | ingest | createArtifact | removePeer => cases quiet

/-- A new artifact is known by the key it was given. -/
theorem createArtifact_ops (input : ArtifactIn) :
    (Artifacts.create server state draw principal input).state.ops = state.ops ∨
      ∃ key, (Artifacts.create server state draw principal input).state.ops =
        state.ops.rememberArtifact key (mint server.base .artifact (draw.site 0)) := by
  unfold Artifacts.create
  cases planned : Artifacts.createPlan server state draw principal input with
  | error e => exact Or.inl rfl
  | ok write =>
    have minted : write.iri = mint server.base .artifact (draw.site 0) := by
      unfold Artifacts.createPlan at planned
      split at planned
      · simp only [Library.Results.bind_ok, Library.Results.pure_ok] at planned
        obtain ⟨_, _, _, _, rfl⟩ := planned
        rfl
      · simp only [Library.Results.bind_ok, Library.Results.pure_ok] at planned
        obtain ⟨_, _, rfl⟩ := planned
        rfl
    simp only [Outcome.planned, Outcome.andThen, Outcome.commit]
    cases Store.apply server.platform state.data write.tx with
    | error e => exact Or.inl rfl
    | ok data =>
      simp only [Artifacts.rememberKey]
      cases input.externalKey with
      | none => exact Or.inl rfl
      | some key =>
        right
        rw [← minted]
        exact ⟨key, rfl⟩

theorem removePeer_ops (id : String) : ∃ peers,
    (Peers.remove server state principal id).state.ops = { state.ops with peers } := by
  unfold Peers.remove Outcome.planned
  split
  · exact ⟨state.ops.peers, rfl⟩
  · split
    · exact ⟨state.ops.peers, rfl⟩
    · unfold Outcome.commit Outcome.andThen
      split
      · rename_i committed
        split at committed
        · cases committed
        · exact ⟨_, rfl⟩
      · rename_i committed
        split at committed
        · exact ⟨state.ops.peers, rfl⟩
        · cases committed

/-- A stub is noted in the table of peers and leaves the queue of IRIs to resolve. -/
theorem fetchStub_ops (now iri : String) (answer : Peers.Answer) : ∃ peers resolveQueue,
    (Peers.fetchStub server state now iri answer).state.ops = { state.ops with peers, resolveQueue } := by
  have noted (ops : Ops) (peer : Option PeerRecord) (error : Option String) :
      ∃ peers, Peers.notePeerContact ops peer now error = { ops with peers } := by
    unfold Peers.notePeerContact
    cases peer with
    | some known => exact ⟨_, rfl⟩
    | none => exact ⟨ops.peers, rfl⟩
  have counted (ops : Ops) (peer : Option PeerRecord) (wasCached : Bool) :
      ∃ peers, Peers.countRecord ops peer wasCached = { ops with peers } := by
    unfold Peers.countRecord
    cases peer with
    | some known =>
      cases wasCached with
      | true => exact ⟨ops.peers, rfl⟩
      | false => exact ⟨_, rfl⟩
    | none => exact ⟨ops.peers, rfl⟩
  have queued (ops : Ops) : ∃ resolveQueue, ops.queueResolve iri = { ops with resolveQueue } := by
    unfold Ops.queueResolve
    split
    · exact ⟨ops.resolveQueue, rfl⟩
    · exact ⟨_, rfl⟩
  have failed (ops : Ops) (error : Option String) (peers : List PeerRecord) (same : ops = { state.ops with peers }) :
      ∃ peers resolveQueue, Peers.notePeerContact ops (Peers.owningPeer state.ops iri) now error =
        { state.ops with peers, resolveQueue } := by
    obtain ⟨others, contact⟩ := noted ops (Peers.owningPeer state.ops iri) error
    exact ⟨others, state.ops.resolveQueue, by rw [contact, same]⟩
  unfold Peers.fetchStub
  split
  · exact failed state.ops _ state.ops.peers rfl
  · obtain ⟨peers, contact⟩ := noted state.ops (Peers.owningPeer state.ops iri) none
    simp only []
    split
    · exact failed _ _ peers contact
    · split
      · exact ⟨peers, state.ops.resolveQueue, contact⟩
      · obtain ⟨queue, resolves⟩ := queued (Peers.notePeerContact state.ops (Peers.owningPeer state.ops iri) now none)
        obtain ⟨others, counts⟩ := counted ((Peers.notePeerContact state.ops (Peers.owningPeer state.ops iri) now
          none).queueResolve iri) (Peers.owningPeer state.ops iri) _
        refine ⟨others, queue, ?_⟩
        rw [counts, resolves, contact]

/-- What is not a request changes no table but those of the peers. -/
theorem background_ops {event : Event} (other : ∀ credential draw action, event ≠ .request credential draw action) :
    ∃ peers resolveQueue, (step server state event).ops = { state.ops with peers, resolveQueue } := by
  cases event with
  | request credential draw action => exact absurd rfl (other credential draw action)
  | health now target verdict =>
    have same : (Health.record server state now target verdict).state.ops = state.ops := KeepsOps.commit _ _
    exact ⟨state.ops.peers, state.ops.resolveQueue, same⟩
  | fetchStub now target answer =>
    simp only [step]
    split
    · exact ⟨state.ops.peers, state.ops.resolveQueue, rfl⟩
    · exact fetchStub_ops now target answer
  | knowPeer peer =>
    simp only [step, Ops.upsertPeer]
    split <;> exact ⟨_, state.ops.resolveQueue, rfl⟩
  | reindex data =>
    simp only [step]
    split <;> exact ⟨state.ops.peers, state.ops.resolveQueue, rfl⟩

/-- The rows a token request may add: its own, while the caller may manage the record. -/
def Mints (server : Server) (draw : Draw) (principal : Principal) (row : TokenRow) : Action → Prop
  | .mintToken id input => Tokens.mayManage principal (iriFor server.base .instance_ id) = .ok () ∧
      Tokens.checkScopes server principal (Tokens.scopesOr Tokens.instanceDefaults input) = .ok () ∧
      ∃ expiry, row = Ops.tokenRow server.platform draw (.instance_ (iriFor server.base .instance_ id))
        (Tokens.scopesOr Tokens.instanceDefaults input) input.label (some principal.subject) expiry
  | .mintSoftwareToken id input => Tokens.mayManageSoftware principal = .ok () ∧
      Tokens.checkScopes server principal (Tokens.scopesOr Tokens.softwareDefaults input) = .ok () ∧
      ∃ expiry, row = Ops.tokenRow server.platform draw (.software (iriFor server.base .software id))
        (Tokens.scopesOr Tokens.softwareDefaults input) input.label (some principal.subject) expiry
  | _ => False

/-- What happens to the table of tokens: nothing, one row more, or one row revoked. -/
inductive TokenStep (server : Server) (draw : Draw) (principal : Principal) (action : Action) :
    List TokenRow → List TokenRow → Prop where
  | same (tokens : List TokenRow) : TokenStep server draw principal action tokens tokens
  | minted (tokens : List TokenRow) (row : TokenRow) (mints : Mints server draw principal row action) :
      TokenStep server draw principal action tokens (tokens ++ [row])
  | revoked (tokens : List TokenRow) (id : String) :
      TokenStep server draw principal action tokens (tokens.map (Ops.revoke draw.now id))

theorem mintPlan_ok {subject : TokenSubject} {iri what : String} {fallback : List String} {input : MintToken}
    {row : TokenRow} {ops : Ops}
    (accepted : Tokens.mintPlan server state draw principal subject iri what fallback input = .ok (row, ops)) :
    Tokens.checkScopes server principal (Tokens.scopesOr fallback input) = .ok () ∧
      (∃ expiry, row = Ops.tokenRow server.platform draw subject (Tokens.scopesOr fallback input) input.label
        (some principal.subject) expiry) ∧ ops = { state.ops with tokens := state.ops.tokens ++ [row] } := by
  unfold Tokens.mintPlan at accepted
  simp only [Library.Results.guard_ok, Library.Results.bind_ok, Library.Results.pure_ok, Prod.mk.injEq] at accepted
  obtain ⟨_, _, _, _, scopes, expiry, _, added, unique, rfl, rfl⟩ := accepted
  refine ⟨scopes, ⟨expiry, rfl⟩, ?_⟩
  unfold Ops.addToken at unique
  split at unique
  · cases unique
  · cases unique
    rfl

theorem revokeIn_tokens {action : Action} (tokenId : String) (plan : AppResult Unit) :
    TokenStep server draw principal action state.ops.tokens (Tokens.revokeIn state draw tokenId plan).state.ops.tokens := by
  cases plan with
  | error e => exact TokenStep.same _
  | ok _ => exact TokenStep.revoked _ tokenId

theorem settle_tokens {action : Action} (plan : AppResult (TokenRow × Ops))
    (each : ∀ row ops, plan = .ok (row, ops) → Mints server draw principal row action ∧
      ops = { state.ops with tokens := state.ops.tokens ++ [row] }) :
    TokenStep server draw principal action state.ops.tokens (Tokens.settle state draw plan).state.ops.tokens := by
  cases planned : plan with
  | error e => exact TokenStep.same _
  | ok minted =>
    obtain ⟨row, ops⟩ := minted
    obtain ⟨mints, added⟩ := each row ops planned
    simp only [Tokens.settle, Outcome.planned, added]
    exact TokenStep.minted _ row mints

/-- The requests that write the tables of keys and claims. -/
def writesKeys : Action → Bool
  | .advertise _ _ | .ingest _ | .createArtifact _ => true
  | _ => false

theorem settle_ops {plan : AppResult (TokenRow × Ops)} (each : ∀ row ops, plan = .ok (row, ops) →
    ops = { state.ops with tokens := state.ops.tokens ++ [row] }) :
    ∃ tokens, (Tokens.settle state draw plan).state.ops = { state.ops with tokens } := by
  cases planned : plan with
  | error e => exact ⟨state.ops.tokens, rfl⟩
  | ok minted => exact ⟨_, each minted.1 minted.2 planned⟩

theorem revokeIn_ops (tokenId : String) (plan : AppResult Unit) :
    ∃ tokens, (Tokens.revokeIn state draw tokenId plan).state.ops = { state.ops with tokens } := by
  cases plan with
  | error e => exact ⟨state.ops.tokens, rfl⟩
  | ok _ => exact ⟨_, rfl⟩

/-- Any other request writes no table but those of tokens and peers. -/
theorem perform_tables {action : Action} (quiet : writesKeys action = false) :
    ∃ tokens peers, (perform server state draw principal action).ops = { state.ops with tokens, peers } := by
  have tokensOnly {after : Ops} (written : ∃ tokens, after = { state.ops with tokens }) :
      ∃ tokens peers, after = { state.ops with tokens, peers } := by
    obtain ⟨tokens, same⟩ := written
    exact ⟨tokens, state.ops.peers, same⟩
  by_cases silent : writesTables action = false
  · exact ⟨state.ops.tokens, state.ops.peers, perform_ops silent⟩
  · cases action with
    | mintToken id input =>
      refine tokensOnly (settle_ops (fun row ops accepted => ?_))
      obtain ⟨_, _, planned⟩ := Library.Results.bind_ok.1 accepted
      exact (mintPlan_ok planned).2.2
    | mintSoftwareToken id input =>
      refine tokensOnly (settle_ops (fun row ops accepted => ?_))
      obtain ⟨_, _, planned⟩ := Library.Results.bind_ok.1 accepted
      exact (mintPlan_ok planned).2.2
    | revokeToken id tokenId => exact tokensOnly (revokeIn_ops tokenId _)
    | revokeSoftwareToken id tokenId => exact tokensOnly (revokeIn_ops tokenId _)
    | removePeer id =>
      obtain ⟨peers, removed⟩ := @removePeer_ops server state principal id
      exact ⟨state.ops.tokens, peers, removed⟩
    | advertise | ingest | createArtifact => cases quiet
    | _ => exact absurd rfl silent

theorem perform_tokens (action : Action) :
    TokenStep server draw principal action state.ops.tokens (perform server state draw principal action).ops.tokens := by
  have kept {after : Ops} (keeps : after.tokens = state.ops.tokens) :
      TokenStep server draw principal action state.ops.tokens after.tokens := by
    rw [keeps]
    exact TokenStep.same _
  by_cases quiet : writesTables action = false
  · exact kept (by rw [perform_ops quiet])
  · cases action with
    | mintToken id input =>
      refine settle_tokens _ (fun row ops accepted => ?_)
      obtain ⟨_, managed, planned⟩ := Library.Results.bind_ok.1 accepted
      obtain ⟨scopes, row, added⟩ := mintPlan_ok planned
      exact ⟨⟨managed, scopes, row⟩, added⟩
    | mintSoftwareToken id input =>
      refine settle_tokens _ (fun row ops accepted => ?_)
      obtain ⟨_, managed, planned⟩ := Library.Results.bind_ok.1 accepted
      obtain ⟨scopes, row, added⟩ := mintPlan_ok planned
      exact ⟨⟨managed, scopes, row⟩, added⟩
    | revokeToken id tokenId => exact revokeIn_tokens tokenId _
    | revokeSoftwareToken id tokenId => exact revokeIn_tokens tokenId _
    | advertise input role => exact kept (Advertise.advertise_wrote input role).2
    | ingest event => exact kept (Openlineage.ingest_wrote event).2
    | createArtifact input =>
      rcases @createArtifact_ops server state draw principal input with same | ⟨key, remembered⟩
      · exact kept (by rw [perform, same])
      · exact kept (by rw [perform, remembered]; rfl)
    | removePeer id =>
      obtain ⟨peers, removed⟩ := @removePeer_ops server state principal id
      exact kept (by rw [perform, removed])
    | _ => exact absurd rfl quiet

end

end ToolArtifactRegistry.Registry
