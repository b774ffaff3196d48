import ToolArtifactRegistry.Auth.Authenticate
import ToolArtifactRegistry.Auth.Authority

/-! The records a credential can act for: what each lookup of a binding read in the store. -/
namespace ToolArtifactRegistry.Auth.Binding

open Library.Rdf Library.Text Library.Serde Domain Jwt

theorem mem_recordsWith {data : Dataset} {predicate : String} {values : List String} {record : Node} :
    record ∈ recordsWith data predicate values ↔
      ∃ value ∈ values, ⟨record, predicate, .simple value, Ns.gLocal⟩ ∈ data := by
  simp only [recordsWith, List.mem_eraseDups, List.mem_map, Dataset.mem_matching, decide_eq_true_eq]
  constructor
  · rintro ⟨quad, ⟨held, graph, said, value, listed, object⟩, rfl⟩
    refine ⟨value, listed, ?_⟩
    rw [object, ← graph, ← said]
    exact held
  · rintro ⟨value, listed, held⟩
    exact ⟨_, ⟨held, rfl, rfl, value, listed, rfl⟩, rfl⟩

/-- The scopes a record declares, as a lookup reads them. -/
def declaredScopes (data : Dataset) (record : Node) : List String :=
  ((groupConcat (localValues data record (Ns.t Ns.tar "allowedScope"))).map splitWhitespace).getD []

theorem mem_clientRows {data : Dataset} {candidates : List String} {row : BindingRow}
    (mem : row ∈ clientRows data candidates) :
    row.record ∈ recordsWith data (Ns.t Ns.tar "oidcClientId") candidates ∧
      rowScopes row = declaredScopes data row.record ∧
      row.issuer ∈ Jwt.optional (localValues data row.record (Ns.t Ns.tar "oidcIssuer")) := by
  simp only [clientRows, List.mem_flatMap, List.mem_map] at mem
  obtain ⟨record, found, _, _, issuer, pinned, rfl⟩ := mem
  exact ⟨found, rfl, pinned⟩

theorem mem_selfRegisteredRows {data : Dataset} {candidates : List String} {row : BindingRow}
    (mem : row ∈ selfRegisteredRows data candidates) :
    row.record ∈ recordsWith data (Ns.t Ns.tar "selfRegisteredBy") candidates ∧
      isTombstoned data row.record = false ∧ rowScopes row = declaredScopes data row.record ∧
      row.issuer ∈ Jwt.optional (localValues data row.record (Ns.t Ns.tar "selfRegisteredIssuer")) := by
  simp only [selfRegisteredRows, List.mem_flatMap, List.mem_map, List.mem_filter, Bool.not_eq_true'] at mem
  obtain ⟨record, ⟨found, live⟩, _, _, _, _, issuer, pinned, rfl⟩ := mem
  exact ⟨found, live, rfl, pinned⟩

/-- How a lookup reached a record: a client id it declares, or a subject that registered it while
it is not withdrawn; at an issuer the record admits. -/
inductive Reached (cfg : OidcConfig) (data : Dataset) (issuer : String) (candidates : List String) (iri : String) : Prop where
  | declared (client : Node.named iri ∈ recordsWith data (Ns.t Ns.tar "oidcClientId") candidates)
      (pinned : Option Term) (admits : issuerAdmits cfg (pinned.map Rdf.Props.termValue) issuer = true)
      (held : pinned ∈ Jwt.optional (localValues data (.named iri) (Ns.t Ns.tar "oidcIssuer")))
  | registered (subject : Node.named iri ∈ recordsWith data (Ns.t Ns.tar "selfRegisteredBy") candidates)
      (live : isTombstoned data (.named iri) = false)
      (pinned : Option Term) (admits : issuerAdmits cfg (pinned.map Rdf.Props.termValue) issuer = true)
      (held : pinned ∈ Jwt.optional (localValues data (.named iri) (Ns.t Ns.tar "selfRegisteredIssuer")))

theorem rowIri_eq {row : BindingRow} {iri : String} (named : rowIri row = some iri) : row.record = .named iri := by
  unfold rowIri at named
  cases record : row.record with
  | named other =>
    rw [record] at named
    cases named
    rfl
  | blank label =>
    rw [record] at named
    cases named

section

variable {cfg : OidcConfig} {data : Dataset} {issuer : String} {binding : InstanceBinding}

theorem findInstanceForClient_ok {candidates : List String}
    (found : findInstanceForClient cfg data issuer candidates = .ok (some binding)) :
    Reached cfg data issuer candidates binding.instanceIri ∧
      binding.allowedScopes = declaredScopes data (.named binding.instanceIri) := by
  unfold findInstanceForClient at found
  split at found
  · cases found
  · split at found
    · obtain ⟨row, kept, bound⟩ := List.exists_of_findSome?_eq_some (Except.ok.inj found)
      obtain ⟨mem, admits⟩ := List.mem_filter.1 kept
      obtain ⟨iri, named, rfl⟩ := Option.map_eq_some_iff.1 bound
      obtain ⟨client, scopes, pinned⟩ := mem_clientRows mem
      rw [rowIri_eq named] at client scopes pinned
      exact ⟨Reached.declared client row.issuer admits pinned, scopes⟩
    · cases found

theorem findSelfRegisteredInstance_ok {candidates : List String}
    (found : findSelfRegisteredInstance cfg data issuer candidates = .ok (some binding)) :
    Reached cfg data issuer candidates binding.instanceIri ∧
      binding.allowedScopes = declaredScopes data (.named binding.instanceIri) := by
  unfold findSelfRegisteredInstance at found
  split at found
  · cases found
  · split at found
    · split at found
      · rename_i row only
        have kept : row ∈ (selfRegisteredRows data candidates).filter
            (fun row => issuerAdmits cfg (issuerText row) issuer) := by simp [only]
        obtain ⟨mem, admits⟩ := List.mem_filter.1 kept
        obtain ⟨iri, named, rfl⟩ := Option.map_eq_some_iff.1 (Except.ok.inj found)
        obtain ⟨subject, live, scopes, pinned⟩ := mem_selfRegisteredRows mem
        rw [rowIri_eq named] at subject live scopes pinned
        exact ⟨Reached.registered subject live row.issuer admits pinned, scopes⟩
      · cases found
    · cases found

theorem findBinding_ok {claims : Json} (found : findBinding cfg issuer claims data = .ok (some binding)) :
    Reached cfg data issuer (candidates cfg issuer claims) binding.instanceIri ∧
      binding.allowedScopes = declaredScopes data (.named binding.instanceIri) := by
  unfold findBinding at found
  cases client : findInstanceForClient cfg data issuer (candidates cfg issuer claims) with
  | error e =>
    rw [client] at found
    cases found
  | ok result =>
    rw [client] at found
    cases result with
    | some other =>
      cases found
      exact findInstanceForClient_ok client
    | none => exact findSelfRegisteredInstance_ok found

end

/-- Whom a credential makes of its bearer. -/
inductive Bearer (server : Server) (state : State) (now : String) : Principal → Prop where
  | anonymous : Bearer server state now Principal.anonymous
  | root : Bearer server state now rootPrincipal
  | row (row : TokenRow) (mem : row ∈ state.ops.tokens) (live : Ops.live server.platform now row = true) :
      Bearer server state now (tokenPrincipal row)
  | claims (issuer : String) (claims : Json) (p : Principal)
      (mapped : principalFromClaims server.config.oidc issuer claims state.data = .ok p) :
      Bearer server state now p

theorem principalOf_ok {server : Server} {state : State} {now : String} {credential : Option String} {p : Principal}
    (accepted : principalOf server state now credential = .ok p) : Bearer server state now p := by
  cases credential with
  | none =>
    cases accepted
    exact Bearer.anonymous
  | some raw =>
    change authenticate server state now raw = .ok p at accepted
    unfold authenticate at accepted
    split at accepted
    · cases accepted
      exact Bearer.root
    · split at accepted
      · split at accepted
        · rename_i row verified
          cases accepted
          obtain ⟨mem, live⟩ := Ops.verifyToken_mem verified
          exact Bearer.row row mem live
        · cases accepted
      · split at accepted
        · unfold authenticateJwt at accepted
          simp only [] at accepted
          split at accepted
          · cases accepted
          · split at accepted
            · cases accepted
            · split at accepted
              · split at accepted
                · cases accepted
                · exact Bearer.claims _ _ p accepted
              · cases accepted
        · cases accepted

/-- A principal that acts for a deployment holds a row for it, or claims that reach its record. -/
theorem acts_cases {server : Server} {state : State} {now : String} {credential : Option String} {p : Principal}
    {iri : String} (accepted : principalOf server state now credential = .ok p) (acts : p.instanceIri = some iri) :
    (∃ row ∈ state.ops.tokens, Ops.live server.platform now row = true ∧ row.instanceIri = some iri ∧
        p = tokenPrincipal row) ∨
      ∃ issuer claims, Reached server.config.oidc state.data issuer
        (candidates server.config.oidc issuer claims) iri := by
  cases principalOf_ok accepted with
  | anonymous => cases acts
  | root => cases acts
  | row row mem live => exact Or.inl ⟨row, mem, live, acts, rfl⟩
  | claims issuer claims _ mapped =>
    right
    rcases Authority.principalFromClaims_cases mapped with ⟨binding, found, rfl⟩ | ⟨_, software, rfl⟩
    · obtain rfl : binding.instanceIri = iri := Option.some.inj acts
      exact ⟨issuer, claims, (findBinding_ok found).1⟩
    · cases acts

end ToolArtifactRegistry.Auth.Binding
