import ToolArtifactRegistry.Auth.Binding
import ToolArtifactRegistry.Laws.Specimen
import ToolArtifactRegistry.RegistryTokens

/-! The life of a registry token over a run: from the request that mints it, its secret makes one and the same principal
until the token is revoked or runs out, and never again. The authority over everything starts at the bootstrap token or
at an identity provider, however many tokens hand it on. -/
namespace ToolArtifactRegistry.Laws.Enduring

open Library.Rdf Library.Runs Library.Text Ids Model Store Auth Domain Api Registry

/-- No two rows have an id or a prefix in common. -/
def Apart (tokens : List TokenRow) : Prop :=
  tokens.Pairwise (fun one other => one.id ≠ other.id ∧ one.pre ≠ other.pre)

/-- An accepted request to revoke the token of this id. -/
def Revokes (server : Server) (state : State) (tokenId : String) : Event → Prop
  | .request credential draw action => ∃ p, principalOf server state draw.now credential = .ok p ∧
      (handle server state draw p action).response = .ok () ∧
      ((∃ id, action = .revokeToken id tokenId) ∨ ∃ id, action = .revokeSoftwareToken id tokenId)
  | _ => False

section Tables

variable {server : Server} {state : State} {draw : Draw} {p : Principal} {action : Action}

theorem mintPlan_fresh {subject : TokenSubject} {iri what : String} {fallback : List String} {input : MintToken}
    {row : TokenRow} {ops : Ops}
    (accepted : Tokens.mintPlan server state draw p subject iri what fallback input = .ok (row, ops)) :
    (∀ other ∈ state.ops.tokens, other.id ≠ row.id ∧ other.pre ≠ row.pre) ∧ ops.tokens = state.ops.tokens ++ [row] := by
  unfold Tokens.mintPlan at accepted
  simp only [Library.Results.guard_ok, Library.Results.bind_ok, Library.Results.pure_ok, Prod.mk.injEq] at accepted
  obtain ⟨_, _, _, _, _, expiry, _, added, unique, rfl, rfl⟩ := accepted
  unfold Ops.addToken at unique
  split at unique
  · cases unique
  · rename_i free
    cases unique
    simp only [List.any_eq_true, decide_eq_true_eq, not_exists, not_and, not_or] at free
    exact ⟨free, rfl⟩

/-- What a request other than a revocation does to the tokens: it adds rows apart from those there. -/
def Grows (before after : List TokenRow) : Prop :=
  ∃ more, after = before ++ more ∧ (Apart before → Apart after)

theorem Grows.refl (tokens : List TokenRow) : Grows tokens tokens := ⟨[], by simp, id⟩

theorem settle_grows {plan : AppResult (TokenRow × Ops)} (each : ∀ row ops, plan = .ok (row, ops) →
    (∀ other ∈ state.ops.tokens, other.id ≠ row.id ∧ other.pre ≠ row.pre) ∧ ops.tokens = state.ops.tokens ++ [row]) :
    Grows state.ops.tokens (Tokens.settle state draw plan).state.ops.tokens := by
  cases planned : plan with
  | error e => exact Grows.refl _
  | ok minted =>
    obtain ⟨row, ops⟩ := minted
    obtain ⟨fresh, added⟩ := each row ops planned
    refine ⟨[row], added, fun apart => ?_⟩
    change Apart ops.tokens
    rw [added]
    refine List.pairwise_append.2 ⟨apart, List.pairwise_singleton _ _, fun other mem new last => ?_⟩
    rw [List.mem_singleton.1 last]
    exact fresh other mem

theorem perform_grows
    (other : ∀ tokenId, (∀ id, action ≠ .revokeToken id tokenId) ∧ ∀ id, action ≠ .revokeSoftwareToken id tokenId) :
    Grows state.ops.tokens (perform server state draw p action).ops.tokens := by
  have kept {after : Ops} (same : after.tokens = state.ops.tokens) : Grows state.ops.tokens after.tokens := by
    rw [same]
    exact Grows.refl _
  by_cases quiet : writesTables action = false
  · exact kept (by rw [perform_ops quiet])
  · cases action with
    | mintToken id input =>
      refine settle_grows (fun row ops accepted => ?_)
      obtain ⟨_, _, planned⟩ := Library.Results.bind_ok.1 accepted
      exact mintPlan_fresh planned
    | mintSoftwareToken id input =>
      refine settle_grows (fun row ops accepted => ?_)
      obtain ⟨_, _, planned⟩ := Library.Results.bind_ok.1 accepted
      exact mintPlan_fresh planned
    | revokeToken id tokenId => exact absurd rfl ((other tokenId).1 id)
    | revokeSoftwareToken id tokenId => exact absurd rfl ((other tokenId).2 id)
    | advertise input role => exact kept (Advertise.advertise_wrote input role).2
    | ingest event => exact kept (Openlineage.ingest_wrote event).2
    | createArtifact input =>
      rcases @createArtifact_ops server state draw p input with same | ⟨key, remembered⟩
      · exact kept (by rw [perform, same])
      · exact kept (by rw [perform, remembered]; rfl)
    | removePeer id =>
      obtain ⟨peers, removed⟩ := @removePeer_ops server state p id
      exact kept (by rw [perform, removed])
    | _ => exact absurd rfl quiet

theorem revoke_id (now tokenId : String) (row : TokenRow) : (Ops.revoke now tokenId row).id = row.id := by
  unfold Ops.revoke
  split <;> rfl

theorem revoke_pre (now tokenId : String) (row : TokenRow) : (Ops.revoke now tokenId row).pre = row.pre := by
  unfold Ops.revoke
  split <;> rfl

theorem revoke_other {now tokenId : String} {row : TokenRow} (other : row.id ≠ tokenId) : Ops.revoke now tokenId row = row :=
  if_neg (fun both => other both.1)

theorem revoked_apart (now tokenId : String) {tokens : List TokenRow} (apart : Apart tokens) :
    Apart (tokens.map (Ops.revoke now tokenId)) := by
  refine List.pairwise_map.2 (apart.imp (fun differ => ?_))
  rw [revoke_id, revoke_id, revoke_pre, revoke_pre]
  exact differ

end Tables

section Steps

variable {server : Server} {state : State} {event : Event}

/-- A step adds rows, or revokes those of one id; only an accepted revocation does the latter. -/
theorem step_tokens : (Grows state.ops.tokens (step server state event).ops.tokens ∧
      ∀ tokenId, ¬Revokes server state tokenId event) ∨
    ∃ now tokenId, (step server state event).ops.tokens = state.ops.tokens.map (Ops.revoke now tokenId) ∧
      ∀ other, Revokes server state other event ↔ other = tokenId := by
  have background {event : Event} (other : ∀ credential draw action, event ≠ .request credential draw action) :
      Grows state.ops.tokens (step server state event).ops.tokens := by
    obtain ⟨peers, queue, same⟩ := @background_ops server state event other
    rw [same]
    exact Grows.refl _
  cases event with
  | request credential draw action =>
    simp only [step, requested]
    cases accepted : principalOf server state draw.now credential with
    | error e =>
      refine Or.inl ⟨Grows.refl _, fun tokenId revokes => ?_⟩
      obtain ⟨p, made, _⟩ := revokes
      rw [accepted] at made
      cases made
    | ok p =>
      have caller {tokenId : String} (revokes : Revokes server state tokenId (.request credential draw action)) :
          (handle server state draw p action).response = .ok () ∧
            ((∃ id, action = .revokeToken id tokenId) ∨ ∃ id, action = .revokeSoftwareToken id tokenId) := by
        obtain ⟨q, made, rest⟩ := revokes
        obtain rfl : p = q := Except.ok.inj (accepted.symm.trans made)
        exact rest
      have revocation {tokenId : String} {plan : AppResult Unit}
          (same : handle server state draw p action = Tokens.revokeIn state draw tokenId plan)
          (named : ∀ other, ((∃ id, action = .revokeToken id other) ∨ ∃ id, action = .revokeSoftwareToken id other) ↔
            other = tokenId) :
          (Grows state.ops.tokens (perform server state draw p action).ops.tokens ∧
            ∀ tokenId, ¬Revokes server state tokenId (.request credential draw action)) ∨
          ∃ now tokenId, (perform server state draw p action).ops.tokens = state.ops.tokens.map (Ops.revoke now tokenId) ∧
            ∀ other, Revokes server state other (.request credential draw action) ↔ other = tokenId := by
        rw [← handle_state, same]
        cases plan with
        | error e =>
          refine Or.inl ⟨Grows.refl _, fun other revokes => ?_⟩
          have answered := (caller revokes).1
          rw [same] at answered
          cases answered
        | ok done =>
          refine Or.inr ⟨draw.now, tokenId, rfl, fun other => ⟨fun revokes => (named other).1 (caller revokes).2, ?_⟩⟩
          rintro rfl
          exact ⟨p, accepted, by rw [same]; rfl, (named _).2 rfl⟩
      cases action with
      | revokeToken id tokenId =>
        refine revocation rfl (fun other => ⟨?_, ?_⟩)
        · rintro (⟨_, same⟩ | ⟨_, same⟩) <;> cases same
          rfl
        · rintro rfl
          exact Or.inl ⟨id, rfl⟩
      | revokeSoftwareToken id tokenId =>
        refine revocation rfl (fun other => ⟨?_, ?_⟩)
        · rintro (⟨_, same⟩ | ⟨_, same⟩) <;> cases same
          rfl
        · rintro rfl
          exact Or.inr ⟨id, rfl⟩
      | _ =>
        refine Or.inl ⟨perform_grows (fun tokenId => ⟨fun id => by simp, fun id => by simp⟩), fun tokenId revokes => ?_⟩
        obtain ⟨_, ⟨_, same⟩ | ⟨_, same⟩⟩ := caller revokes <;> cases same
  | _ => exact Or.inl ⟨background (by simp), fun _ revokes => revokes⟩

theorem step_apart (apart : Apart state.ops.tokens) : Apart (step server state event).ops.tokens := by
  rcases @step_tokens server state event with ⟨⟨_, _, keeps⟩, _⟩ | ⟨now, tokenId, same, _⟩
  · exact keeps apart
  · rw [same]
    exact revoked_apart now tokenId apart

theorem reachable_apart (reachable : Reachable server state) : Apart state.ops.tokens := by
  obtain ⟨events, rfl⟩ := reachable
  exact run_invariant (step server) (fun state => Apart state.ops.tokens) List.Pairwise.nil
    (fun _ _ apart _ => step_apart apart) (@meets_of_forall _ _ (step server) (fun _ _ => True) _ _ (by simp))

/-- A row stays as it is until it is revoked. -/
theorem step_holds {row : TokenRow} (held : row ∈ state.ops.tokens) (quiet : ¬Revokes server state row.id event) :
    row ∈ (step server state event).ops.tokens := by
  rcases @step_tokens server state event with ⟨⟨more, same, _⟩, _⟩ | ⟨now, tokenId, same, only⟩
  · rw [same]
    exact List.mem_append_left _ held
  · rw [same]
    refine List.mem_map.2 ⟨row, held, revoke_other (fun named => quiet ((only _).2 named))⟩

/-- The row is there, marked as revoked. -/
def Gone (tokens : List TokenRow) (row : TokenRow) : Prop :=
  ∃ other ∈ tokens, other.id = row.id ∧ other.pre = row.pre ∧ other.revokedAt ≠ none

theorem revoke_marks (now : String) (row : TokenRow) : (Ops.revoke now row.id row).revokedAt ≠ none := by
  unfold Ops.revoke
  split
  · simp
  · rename_i marked
    simpa using marked

theorem revoke_marked {now tokenId : String} {row : TokenRow} (marked : row.revokedAt ≠ none) :
    (Ops.revoke now tokenId row).revokedAt ≠ none := by
  unfold Ops.revoke
  split
  · simp
  · exact marked

theorem step_marks {row : TokenRow} (held : row ∈ state.ops.tokens) (revokes : Revokes server state row.id event) :
    Gone (step server state event).ops.tokens row := by
  rcases @step_tokens server state event with ⟨_, never⟩ | ⟨now, tokenId, same, only⟩
  · exact absurd revokes (never _)
  · rw [same]
    obtain rfl := (only _).1 revokes
    exact ⟨_, List.mem_map_of_mem held, revoke_id _ _ _, revoke_pre _ _ _, revoke_marks now row⟩

theorem step_gone {row : TokenRow} (gone : Gone state.ops.tokens row) : Gone (step server state event).ops.tokens row := by
  obtain ⟨other, held, named, lookup, marked⟩ := gone
  rcases @step_tokens server state event with ⟨⟨more, same, _⟩, _⟩ | ⟨now, tokenId, same, _⟩
  · rw [same]
    exact ⟨other, List.mem_append_left _ held, named, lookup, marked⟩
  · rw [same]
    exact ⟨_, List.mem_map_of_mem held, (revoke_id _ _ _).trans named, (revoke_pre _ _ _).trans lookup, revoke_marked marked⟩

theorem Apart.unique {tokens : List TokenRow} (apart : Apart tokens) {one other : TokenRow} (first : one ∈ tokens)
    (second : other ∈ tokens) (same : one.id = other.id ∨ one.pre = other.pre) : one = other := by
  by_contra differ
  have symmetric : Std.Symm (fun one other : TokenRow => one.id ≠ other.id ∧ one.pre ≠ other.pre) :=
    ⟨fun _ _ both => ⟨both.1.symm, both.2.symm⟩⟩
  have split := apart.forall first second differ
  exact same.elim split.1 split.2

/-- The row of a token that no event revokes. -/
theorem run_holds {row : TokenRow} {start : State} {events : List Event} (held : row ∈ start.ops.tokens)
    (quiet : Meets (step server) (fun state event => ¬Revokes server state row.id event) start events) :
    row ∈ (run (step server) start events).ops.tokens := by
  induction events generalizing start with
  | nil => exact held
  | cons event rest ih => exact ih (step_holds held quiet.1) quiet.2

/-- And of one that some event revokes. -/
theorem run_gone {row : TokenRow} {start : State} {events : List Event} (held : row ∈ start.ops.tokens)
    (revoked : ¬Meets (step server) (fun state event => ¬Revokes server state row.id event) start events) :
    Gone (run (step server) start events).ops.tokens row := by
  induction events generalizing start with
  | nil => exact absurd trivial revoked
  | cons event rest ih =>
    by_cases here : Revokes server start row.id event
    · have from_ (state : State) (gone : Gone state.ops.tokens row) :
          Gone (run (step server) state rest).ops.tokens row := by
        clear ih revoked
        induction rest generalizing state with
        | nil => exact gone
        | cons event rest ih => exact ih _ (step_gone gone)
      exact from_ _ (step_marks held here)
    · exact ih (step_holds held here) (fun quiet => revoked ⟨here, quiet⟩)

theorem run_apart {start : State} (events : List Event) (apart : Apart start.ops.tokens) :
    Apart (run (step server) start events).ops.tokens := by
  induction events generalizing start with
  | nil => exact apart
  | cons event rest ih => exact ih (step_apart apart)

end Steps

section Secrets

variable {server : Server}

/-- The answer to a request that mints. -/
def Answers (server : Server) (state : State) (draw : Draw) (p : Principal) (m : Tokens.Minted) : Action → Prop
  | .mintToken id input => (Tokens.create server state draw p id input).response = .ok m
  | .mintSoftwareToken id input => (Tokens.createForSoftware server state draw p id input).response = .ok m
  | _ => False

theorem settle_answers {state : State} {draw : Draw} {plan : AppResult (TokenRow × Ops)} {m : Tokens.Minted}
    (answers : (Tokens.settle state draw plan).response = .ok m) : ∃ ops, plan = .ok (m.record, ops) ∧
      m.token = Ops.plaintext draw ∧ (Tokens.settle state draw plan).state.ops = ops := by
  cases planned : plan with
  | error e =>
    rw [planned] at answers
    cases answers
  | ok minted =>
    obtain ⟨row, ops⟩ := minted
    rw [planned] at answers
    cases answers
    exact ⟨ops, rfl, rfl, rfl⟩

/-- What a minted row says of itself. -/
structure Fresh (server : Server) (draw : Draw) (m : Tokens.Minted) : Prop where
  token : m.token = Ops.plaintext draw
  pre : m.record.pre = (draw.site 0).random []
  hash : m.record.hash = server.platform.hashSecret (Ops.plaintext draw)
  unrevoked : m.record.revokedAt = none

theorem answers_fresh {state : State} {draw : Draw} {p : Principal} {m : Tokens.Minted} {action : Action}
    (answers : Answers server state draw p m action) :
    Fresh server draw m ∧ m.record ∈ (perform server state draw p action).ops.tokens := by
  have made {subject : TokenSubject} {iri what : String} {fallback : List String} {input : MintToken} {ops : Ops}
      (planned : Tokens.mintPlan server state draw p subject iri what fallback input = .ok (m.record, ops))
      (token : m.token = Ops.plaintext draw) : Fresh server draw m ∧ m.record ∈ ops.tokens := by
    obtain ⟨_, ⟨expiry, row⟩, rfl⟩ := mintPlan_ok planned
    exact ⟨⟨token, by rw [row]; rfl, by rw [row]; rfl, by rw [row]; rfl⟩, by simp⟩
  cases action with
  | mintToken id input =>
    obtain ⟨ops, planned, token, left⟩ := settle_answers answers
    obtain ⟨_, _, planned⟩ := Library.Results.bind_ok.1 planned
    change _ ∧ m.record ∈ (Tokens.settle state draw _).state.ops.tokens
    rw [left]
    exact made planned token
  | mintSoftwareToken id input =>
    obtain ⟨ops, planned, token, left⟩ := settle_answers answers
    obtain ⟨_, _, planned⟩ := Library.Results.bind_ok.1 planned
    change _ ∧ m.record ∈ (Tokens.settle state draw _).state.ops.tokens
    rw [left]
    exact made planned token
  | _ => exact answers.elim

theorem find_row {tokens : List TokenRow} (apart : Apart tokens) {row : TokenRow} (held : row ∈ tokens) {pre : String}
    (lookup : row.pre = pre) : tokens.find? (fun other => decide (other.pre = pre)) = some row := by
  cases found : tokens.find? (fun other => decide (other.pre = pre)) with
  | none =>
    have none_ := List.find?_eq_none.1 found row held
    simp [lookup] at none_
  | some other =>
    have same : other.pre = row.pre := by
      have matching := List.find?_some found
      exact (of_decide_eq_true matching).trans lookup.symm
    rw [apart.unique (List.mem_of_find?_eq_some found) held (Or.inr same)]

theorem plaintext_parts {draw : Draw} (plain : '_' ∉ ((draw.site 0).random []).toList) :
    ∃ rest tail, stripPrefix (Ops.plaintext draw) "tar_" = some rest ∧
      splitOnce rest '_' = some ((draw.site 0).random [], tail) := by
  generalize hex : (draw.site 0).random [] = pre at plain ⊢
  have whole : Ops.plaintext draw = "tar_" ++ (pre ++ "_" ++ (draw.site 1).random []) := by
    unfold Ops.plaintext
    rw [hex, String.append_assoc, String.append_assoc, String.append_assoc]
  rw [whole]
  refine ⟨_, (draw.site 1).random [], stripPrefix_append _ _, ?_⟩
  have letters : (pre ++ "_" ++ (draw.site 1).random []).toList = pre.toList ++ '_' :: ((draw.site 1).random []).toList := by
    rw [String.toList_append, String.toList_append, List.append_assoc]
    rfl
  have passes : ∀ c ∈ pre.toList, (c != '_') = true := by
    intro c mem
    rw [bne_iff_ne]
    rintro rfl
    exact plain mem
  unfold splitOnce
  rw [letters, if_pos (by simp), List.takeWhile_append_of_pos passes, List.dropWhile_append_of_pos passes,
    List.takeWhile_cons_of_neg (by decide), List.dropWhile_cons_of_neg (by decide)]
  simp

/-- A secret is checked against the one row it names. -/
theorem authenticate_secret {state : State} (apart : Apart state.ops.tokens) {draw : Draw} {row : TokenRow}
    (held : row ∈ state.ops.tokens) (lookup : row.pre = (draw.site 0).random [])
    (plain : '_' ∉ ((draw.site 0).random []).toList) (unlike : server.config.rootToken ≠ some (Ops.plaintext draw))
    {now : String} : authenticate server state now (Ops.plaintext draw) =
      if server.platform.verifySecret (Ops.plaintext draw) row.hash && Ops.live server.platform now row then
        .ok (tokenPrincipal row)
      else .error (AppError.unauthorized "token is unknown, revoked or expired") := by
  obtain ⟨rest, tail, stripped, cut⟩ := plaintext_parts plain
  have marked : startsWith (Ops.plaintext draw) "tar_" = true := startsWith_iff.2 ⟨rest, stripPrefix_eq_some.1 stripped⟩
  have verified : Ops.verifyToken server.platform state.ops now (Ops.plaintext draw) =
      if server.platform.verifySecret (Ops.plaintext draw) row.hash && Ops.live server.platform now row then some row
      else none := by
    unfold Ops.verifyToken
    simp only [stripped, cut, find_row apart held lookup, bind, Option.bind]
  unfold authenticate
  rw [if_neg unlike, if_pos marked, verified]
  generalize (server.platform.verifySecret (Ops.plaintext draw) row.hash && Ops.live server.platform now row) = holds
  cases holds <;> rfl

/-- From the request that mints it, a secret makes one principal: until the first accepted revocation of its token and
up to its expiry, and never after either. -/
theorem honoured_iff {start : State} (reachable : Reachable server start) {credential : Option String} {draw : Draw}
    {action : Action} {p : Principal} {m : Tokens.Minted} (accepted : principalOf server start draw.now credential = .ok p)
    (answers : Answers server start draw p m action)
    (verifies : ∀ text, server.platform.verifySecret text (server.platform.hashSecret text) = true)
    (plain : '_' ∉ ((draw.site 0).random []).toList) (unlike : server.config.rootToken ≠ some m.token)
    {events : List Event} {now : String} {q : Principal} :
    authenticate server (run (step server) start (.request credential draw action :: events)) now m.token = .ok q ↔
      q = tokenPrincipal m.record ∧ m.record.expiresAt.any (fun expiry => server.platform.expired expiry now) = false ∧
        Meets (step server) (fun state event => ¬Revokes server state m.record.id event)
          (step server start (.request credential draw action)) events := by
  obtain ⟨fresh, held⟩ := answers_fresh answers
  have after : step server start (.request credential draw action) = perform server start draw p action := by
    simp only [step, requested, accepted]
  have apart : Apart (step server start (.request credential draw action)).ops.tokens :=
    step_apart (reachable_apart reachable)
  rw [← after] at held
  rw [fresh.token] at unlike ⊢
  rw [run_cons]
  by_cases quiet : Meets (step server) (fun state event => ¬Revokes server state m.record.id event)
      (step server start (.request credential draw action)) events
  · have alive : Ops.live server.platform now m.record =
        !m.record.expiresAt.any (fun expiry => server.platform.expired expiry now) := by
      simp [Ops.live, fresh.unrevoked]
    rw [authenticate_secret (run_apart events apart) (run_holds held quiet) fresh.pre plain unlike, fresh.hash, verifies,
      Bool.true_and, alive]
    cases m.record.expiresAt.any (fun expiry => server.platform.expired expiry now) with
    | true => simp
    | false => simp [quiet, eq_comm]
  · obtain ⟨other, there, _, lookup, marked⟩ := run_gone held quiet
    have dead : Ops.live server.platform now other = false := by
      unfold Ops.live
      rw [Option.isNone_eq_false_iff.2 (Option.isSome_iff_ne_none.2 marked), Bool.false_and]
    rw [authenticate_secret (run_apart events apart) there (lookup.trans fresh.pre) plain unlike, dead, Bool.and_false]
    simp [quiet]

end Secrets

section Roots

variable (server : Server)

/-- A request of an administrator whose authority is no registry token's. -/
def RootedIn (state : State) : Event → Prop
  | .request credential draw _ => ∃ p, principalOf server state draw.now credential = .ok p ∧ p.isAdmin = true ∧
      p.credential ≠ .localToken
  | _ => False

/-- A row that hands on the authority over everything. -/
def Grants (row : TokenRow) : Prop := scopeAdmin ∈ splitWhitespace row.scopes

variable {server}

theorem granting_principal {row : TokenRow} (admin : (tokenPrincipal row).isAdmin = true) : Grants row := by
  rcases Principal.isAdmin_iff.1 admin with role | held
  · cases role
  · exact List.mem_toFinset.1 held

theorem checkScopes_known {p : Principal} {scopes : List String} (checked : Tokens.checkScopes server p scopes = .ok ()) :
    (∀ scope ∈ scopes, scope ∈ allScopes) ∧ (scopeAdmin ∈ scopes → p.isAdmin = true) := by
  induction scopes with
  | nil => simp
  | cons scope rest ih =>
    obtain ⟨_, first, later⟩ := Library.Results.bind_ok.1 checked
    obtain ⟨known, guarded⟩ := ih later
    unfold Tokens.checkScope at first
    split at first
    · cases first
    · rename_i listed
      split at first
      · cases first
      · rename_i permitted
        refine ⟨fun other mem => ?_, fun mem => ?_⟩
        · rcases List.mem_cons.1 mem with rfl | mem
          · exact not_not.1 listed
          · exact known other mem
        · rcases List.mem_cons.1 mem with rfl | mem
          · simpa using permitted
          · exact guarded mem

/-- Only an administrator mints an administrator's token. -/
theorem minted_grants {draw : Draw} {p : Principal} {action : Action} {row : TokenRow}
    (mints : Mints server draw p row action)
    (grants : Grants row) : p.isAdmin = true := by
  have words : ∀ scope ∈ allScopes, Word scope := by decide
  have held {subject : TokenSubject} {scopes : List String} {label createdBy expiry : Option String}
      (checked : Tokens.checkScopes server p scopes = .ok ())
      (grants : Grants (Ops.tokenRow server.platform draw subject scopes label createdBy expiry)) : p.isAdmin = true := by
    obtain ⟨known, guarded⟩ := checkScopes_known checked
    have spelled : scopeAdmin ∈ splitWhitespace (join " " scopes) := grants
    rw [splitWhitespace_join (fun scope mem => words scope (known scope mem))] at spelled
    exact guarded spelled
  cases action with
  | mintToken id input =>
    obtain ⟨_, checked, expiry, rfl⟩ := mints
    exact held checked grants
  | mintSoftwareToken id input =>
    obtain ⟨_, checked, expiry, rfl⟩ := mints
    exact held checked grants
  | _ => exact mints.elim

/-- A token that is new with a step and grants everything comes from a root, or from another such token. -/
theorem step_grants {state : State} {event : Event} (granting : ∃ row ∈ (step server state event).ops.tokens, Grants row) :
    (∃ row ∈ state.ops.tokens, Grants row) ∨ RootedIn server state event := by
  have same {tokens : List TokenRow} (kept : tokens = state.ops.tokens) (granting : ∃ row ∈ tokens, Grants row) :
      ∃ row ∈ state.ops.tokens, Grants row := kept ▸ granting
  have background {event : Event} (other : ∀ credential draw action, event ≠ .request credential draw action) :
      (step server state event).ops.tokens = state.ops.tokens := by
    obtain ⟨peers, queue, kept⟩ := @background_ops server state event other
    rw [kept]
  cases event with
  | request credential draw action =>
    simp only [step, requested] at granting
    cases accepted : principalOf server state draw.now credential with
    | error e =>
      rw [accepted] at granting
      exact Or.inl granting
    | ok p =>
      rw [accepted] at granting
      obtain ⟨row, mem, grants⟩ := granting
      have tokens := @perform_tokens server state draw p action
      generalize (perform server state draw p action).ops.tokens = after at tokens mem
      cases tokens with
      | same => exact Or.inl ⟨row, mem, grants⟩
      | revoked id =>
        obtain ⟨before, held, rfl⟩ := List.mem_map.1 mem
        refine Or.inl ⟨before, held, ?_⟩
        unfold Ops.revoke at grants
        split at grants <;> exact grants
      | minted new mints =>
        rcases List.mem_append.1 mem with held | last
        · exact Or.inl ⟨row, held, grants⟩
        · have admin := minted_grants mints (List.mem_singleton.1 last ▸ grants)
          cases Binding.principalOf_ok accepted with
          | anonymous => exact absurd admin (by decide)
          | root => exact Or.inr ⟨_, accepted, admin, by decide⟩
          | row other held _ => exact Or.inl ⟨other, held, granting_principal admin⟩
          | claims issuer claims _ mapped =>
            refine Or.inr ⟨p, accepted, admin, ?_⟩
            rcases Authority.principalFromClaims_cases mapped with ⟨binding, _, rfl⟩ | ⟨_, software, rfl⟩
            · simp [Jwt.boundPrincipal]
            · simp only [Jwt.unboundPrincipal]
              split <;> simp
  | _ => exact Or.inl (same (background (by simp)) granting)

end Roots

section Specimen

open Specimen

/-- A registry with one tool. -/
def equipped : State := run (step (registry [])) State.empty [byRoot "s" (.createSoftware { name := "tool" })]

/-- A key of the tool's that grants the authority over everything. -/
def key : Action := .mintSoftwareToken "sa" { scopes := [scopeAdmin] }

def keyed : Tokens.Minted :=
  ⟨"tar_ta_tb", Ops.tokenRow (platform []) (draw "t") (.software "https://reg.example/software/sa") [scopeAdmin] none
    (some "urn:tar:root") none⟩

/-- Revoked, it opens nothing. -/
theorem key_honoured : authenticate (registry []) (run (step (registry [])) equipped
      (.request (some "root") (draw "t") key :: [byRoot "v" (.revokeSoftwareToken "sa" "t")])) "2026-01-01T00:00:00Z"
      keyed.token = .ok (tokenPrincipal keyed.record) ↔
    tokenPrincipal keyed.record = tokenPrincipal keyed.record ∧
      keyed.record.expiresAt.any (fun expiry => (platform []).expired expiry "2026-01-01T00:00:00Z") = false ∧
      Meets (step (registry [])) (fun state event => ¬Revokes (registry []) state keyed.record.id event)
        (step (registry []) equipped (.request (some "root") (draw "t") key)) [byRoot "v" (.revokeSoftwareToken "sa" "t")] :=
  honoured_iff ⟨_, rfl⟩ (p := rootPrincipal) (by decide) (by rfl) (fun text => by simp [registry, platform]) (by decide)
    (by decide)

/-- A key that was made with a key. -/
def handed : List Event :=
  [byRoot "s" (.createSoftware { name := "tool" }), byRoot "t" key, .request (some "tar_ta_tb") (draw "u") key]

end Specimen

end ToolArtifactRegistry.Laws.Enduring
