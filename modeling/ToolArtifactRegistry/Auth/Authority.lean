import ToolArtifactRegistry.Auth.Jwt

/-! What a verified token can make of its bearer: when a workload issuer gives no authority over
the registry, and when a record's scopes bound a deployment's. -/
namespace ToolArtifactRegistry.Auth.Authority

open Library.Rdf Library.Serde Library.Text Jwt

/-- A scope this registry understands, in one of the three claims it reads scopes from. -/
def Carries (cfg : OidcConfig) (claims : Json) (scope : String) : Prop :=
  scope ∈ allScopes ∧ ∃ path ∈ [cfg.scopeClaim, "scope", "scp"], ∃ value,
    claimPath claims path = some value ∧ scope ∈ stringList value

theorem mem_tokenScopes {cfg : OidcConfig} {claims : Json} {scope : String} :
    scope ∈ tokenScopes cfg claims ↔ Carries cfg claims scope := by
  simp only [tokenScopes, List.mem_toFinset, List.mem_filter, List.mem_flatMap, decide_eq_true_eq, Carries]
  constructor
  · rintro ⟨⟨path, listed, found⟩, known⟩
    refine ⟨known, path, listed, ?_⟩
    cases claim : claimPath claims path with
    | none => simp [claim] at found
    | some value => exact ⟨value, rfl, by simpa [claim] using found⟩
  · rintro ⟨known, path, listed, value, claim, found⟩
    exact ⟨⟨path, listed, by simpa [claim] using found⟩, known⟩

/-- A claim set maps onto the principal of its binding, or onto one without a deployment. -/
theorem principalFromClaims_cases {cfg : OidcConfig} {issuer : String} {claims : Json} {data : Dataset}
    {p : Principal} (mapped : principalFromClaims cfg issuer claims data = .ok p) :
    (∃ binding, findBinding cfg issuer claims data = .ok (some binding) ∧
      p = boundPrincipal cfg issuer claims binding) ∨
    (findBinding cfg issuer claims data = .ok none ∧
      ∃ software, p = unboundPrincipal cfg issuer claims software) := by
  unfold principalFromClaims at mapped
  cases found : findBinding cfg issuer claims data with
  | error e => simp [found, bind, Except.bind] at mapped
  | ok result =>
    cases result with
    | some binding =>
      left
      simp only [found, bind, Except.bind, pure, Except.pure, Except.ok.injEq] at mapped
      exact ⟨binding, rfl, mapped.symm⟩
    | none =>
      right
      refine ⟨rfl, ?_⟩
      simp only [found, bind, Except.bind, pure, Except.pure] at mapped
      by_cases person : isPerson cfg issuer claims = true
      · rw [if_pos person] at mapped
        exact ⟨none, (Except.ok.inj mapped).symm⟩
      · rw [if_neg person] at mapped
        cases lookup : findSoftwareForClient cfg data issuer (candidates cfg issuer claims) with
        | error e => simp [lookup] at mapped
        | ok software =>
          rw [lookup] at mapped
          exact ⟨software, (Except.ok.inj mapped).symm⟩

theorem bound_of_binding {cfg : OidcConfig} {issuer : String} {claims : Json} {data : Dataset}
    {p : Principal} {binding : InstanceBinding} (mapped : principalFromClaims cfg issuer claims data = .ok p)
    (bound : findBinding cfg issuer claims data = .ok (some binding)) :
    p = boundPrincipal cfg issuer claims binding := by
  rcases principalFromClaims_cases mapped with ⟨other, found, same⟩ | ⟨found, _⟩
  · rw [bound] at found
    cases found
    exact same
  · rw [bound] at found
    cases found

theorem roles_away {cfg : OidcConfig} {issuer : String} (claims : Json)
    (away : cfg.issuer.map OidcConfig.trimIssuer ≠ some issuer) : claimRoles cfg issuer claims = ∅ := by
  simp [claimRoles, roleStrings, homeIssuer, away]

theorem credential_ne_none {cfg : OidcConfig} {issuer : String} {claims : Json} {data : Dataset}
    {p : Principal} (mapped : principalFromClaims cfg issuer claims data = .ok p) : p.credential ≠ .none := by
  rcases principalFromClaims_cases mapped with ⟨binding, _, rfl⟩ | ⟨_, software, rfl⟩
  · simp [boundPrincipal]
  · simp only [unboundPrincipal]
    split <;> simp

/-- No authority over the registry: neither guard passes and neither predicate holds. -/
def Powerless (p : Principal) : Prop :=
  p.requireCurator ≠ .ok () ∧ p.requireAdmin ≠ .ok () ∧ p.isCurator = false ∧ p.isAdmin = false

theorem powerless_iff {p : Principal} (known : p.credential ≠ .none) (plain : p.roles = ∅) :
    Powerless p ↔ scopeAdmin ∉ p.scopes ∧ scopeRegisterSoftware ∉ p.scopes := by
  have admin : p.isAdmin = false ↔ scopeAdmin ∉ p.scopes := by
    simp [Principal.isAdmin, plain]
  have curator : p.isCurator = false ↔ scopeAdmin ∉ p.scopes := by
    simp [Principal.isCurator, Principal.isAdmin, plain]
  constructor
  · rintro ⟨noCurator, _, _, noAdmin⟩
    refine ⟨admin.1 noAdmin, fun held => noCurator ?_⟩
    exact Principal.requireCurator_ok.2 ⟨known, Or.inr (Principal.hasScope_iff.2 (Or.inr held))⟩
  · rintro ⟨noAdmin, noRegister⟩
    refine ⟨fun passes => ?_, fun passes => ?_, curator.2 noAdmin, admin.2 noAdmin⟩
    · rcases (Principal.requireCurator_ok.1 passes).2 with isCurator | held
      · simp [curator.2 noAdmin] at isCurator
      · rcases Principal.hasScope_iff.1 held with isAdmin | inScopes
        · simp [admin.2 noAdmin] at isAdmin
        · exact noRegister inScopes
    · have isAdmin := (Principal.requireAdmin_ok.1 passes).2
      simp [admin.2 noAdmin] at isAdmin

/-- The scopes that carry authority over the registry. -/
def Ruling (scope : String) : Prop := scope = scopeAdmin ∨ scope = scopeRegisterSoftware

/-- A token from a workload issuer carries no ruling scope, and neither does the record it binds
to when the token leaves the scopes to that record. -/
def Modest (cfg : OidcConfig) (issuer : String) (claims : Json) (data : Dataset) : Prop :=
  (∀ scope, Carries cfg claims scope → ¬Ruling scope) ∧
    ((∀ scope, ¬Carries cfg claims scope) → ∀ binding,
      findBinding cfg issuer claims data = .ok (some binding) → ∀ scope ∈ binding.allowedScopes, ¬Ruling scope)

theorem mem_boundScopes {cfg : OidcConfig} {claims : Json} {binding : InstanceBinding} {scope : String} :
    scope ∈ boundScopes cfg claims binding ↔
      Carries cfg claims scope ∨ ((∀ other, ¬Carries cfg claims other) ∧
        (scope ∈ binding.allowedScopes ∨ (binding.allowedScopes = [] ∧ scope ∈ defaultScopes))) := by
  unfold boundScopes
  by_cases carried : tokenScopes cfg claims = ∅
  · have none_ : ∀ other, ¬Carries cfg claims other := by
      intro other carries
      have mem := mem_tokenScopes.2 carries
      rw [carried] at mem
      simp at mem
    rw [if_neg (by simpa using carried)]
    by_cases empty : binding.allowedScopes = []
    · simp [empty, none_]
    · simp [empty, none_]
  · rw [if_pos carried, mem_tokenScopes]
    constructor
    · exact Or.inl
    · rintro (carries | ⟨none_, _⟩)
      · exact carries
      · exact absurd (Finset.eq_empty_of_forall_notMem fun other mem => none_ other (mem_tokenScopes.1 mem)) carried

theorem default_not_ruling {scope : String} (mem : scope ∈ defaultScopes) : ¬Ruling scope := by
  simp only [defaultScopes, Finset.mem_insert, Finset.mem_singleton] at mem
  rcases mem with rfl | rfl <;> simp [Ruling, scopeAdvertiseProduce, scopeAdvertiseConsume, scopeAdmin,
    scopeRegisterSoftware]

/-- A token from any issuer but the home one gives no authority exactly when it is modest. -/
theorem workload_powerless_iff {cfg : OidcConfig} {issuer : String} {claims : Json} {data : Dataset}
    {p : Principal} (away : cfg.issuer.map OidcConfig.trimIssuer ≠ some issuer)
    (mapped : principalFromClaims cfg issuer claims data = .ok p) :
    Powerless p ↔ Modest cfg issuer claims data := by
  have known := credential_ne_none mapped
  rcases principalFromClaims_cases mapped with ⟨binding, bound, rfl⟩ | ⟨unbound, software, rfl⟩
  · rw [powerless_iff known (roles_away claims away)]
    simp only [boundPrincipal, mem_boundScopes]
    constructor
    · rintro ⟨noAdmin, noRegister⟩
      refine ⟨?_, ?_⟩
      · rintro scope carries (rfl | rfl)
        · exact noAdmin (Or.inl carries)
        · exact noRegister (Or.inl carries)
      · intro none_ other found scope mem
        rw [bound] at found
        cases found
        rintro (rfl | rfl)
        · exact noAdmin (Or.inr ⟨none_, Or.inl mem⟩)
        · exact noRegister (Or.inr ⟨none_, Or.inl mem⟩)
    · rintro ⟨token, record⟩
      have clean : ∀ scope, Ruling scope → ¬(Carries cfg claims scope ∨ ((∀ other, ¬Carries cfg claims other) ∧
          (scope ∈ binding.allowedScopes ∨ (binding.allowedScopes = [] ∧ scope ∈ defaultScopes)))) := by
        rintro scope ruling (carries | ⟨none_, declared | ⟨_, fallback⟩⟩)
        · exact token scope carries ruling
        · exact record none_ binding bound scope declared ruling
        · exact default_not_ruling fallback ruling
      exact ⟨clean _ (Or.inl rfl), clean _ (Or.inr rfl)⟩
  · rw [powerless_iff known (roles_away claims away)]
    simp only [unboundPrincipal, mem_tokenScopes]
    constructor
    · rintro ⟨noAdmin, noRegister⟩
      refine ⟨?_, ?_⟩
      · rintro scope carries (rfl | rfl)
        · exact noAdmin carries
        · exact noRegister carries
      · intro _ binding found
        rw [unbound] at found
        cases found
    · rintro ⟨token, _⟩
      exact ⟨fun carries => token _ carries (Or.inl rfl), fun carries => token _ carries (Or.inr rfl)⟩

/-- A deployment's scopes stay within its record and its token exactly when the token asks for
nothing the record withholds. -/
theorem bound_scopes_tightened_iff {cfg : OidcConfig} {issuer : String} {claims : Json} {data : Dataset}
    {p : Principal} {binding : InstanceBinding}
    (bound : findBinding cfg issuer claims data = .ok (some binding)) (declares : binding.allowedScopes ≠ [])
    (mapped : principalFromClaims cfg issuer claims data = .ok p) :
    ((∀ scope ∈ p.scopes, scope ∈ binding.allowedScopes) ∧
      ((∃ scope, Carries cfg claims scope) → ∀ scope ∈ p.scopes, Carries cfg claims scope)) ↔
    ∀ scope, Carries cfg claims scope → scope ∈ binding.allowedScopes := by
  rw [bound_of_binding mapped bound]
  simp only [boundPrincipal, mem_boundScopes, declares, false_and, or_false]
  constructor
  · rintro ⟨within, _⟩ scope carries
    exact within scope (Or.inl carries)
  · intro within
    refine ⟨?_, ?_⟩
    · rintro scope (carries | ⟨_, declared⟩)
      · exact within scope carries
      · exact declared
    · rintro ⟨other, carries⟩ scope (here | ⟨none_, _⟩)
      · exact here
      · exact absurd carries (none_ other)

section Runs

/-- A registry whose own provider is a Keycloak, and which also accepts a cluster's tokens. -/
def estate : OidcConfig :=
  { issuer := some "https://kc.example/realms/ids", workloadIssuers := ["https://k8s.example"] }

/-- A service account's token whose scope claim spells one scope. -/
def clusterToken (scope : String) : Json :=
  .object [("scope", .string scope), ("sub", .string "system:serviceaccount:ci:runner")]

def clusterPrincipal (scope : String) : Principal where
  credential := .oidcWorkload
  instanceIri := none
  softwareIri := none
  subject := "system:serviceaccount:ci:runner"
  displayName := none
  scopes := {scope}
  roles := ∅
  issuer := some "https://k8s.example"

/-- A cluster's token that asks for `admin:*` rules the registry. -/
theorem cluster_token_rules :
    principalFromClaims estate "https://k8s.example" (clusterToken "admin:*") Dataset.empty =
      .ok (clusterPrincipal "admin:*") ∧ ¬Powerless (clusterPrincipal "admin:*") := by
  refine ⟨ok_of_toOption (by decide), fun none_ => ?_⟩
  have admin : (clusterPrincipal "admin:*").isAdmin = true := by decide
  rw [none_.2.2.2] at admin
  cases admin

theorem cluster_token_powerless_iff :
    Powerless (clusterPrincipal "register:instance") ↔
      Modest estate "https://k8s.example" (clusterToken "register:instance") Dataset.empty :=
  workload_powerless_iff (by decide) (ok_of_toOption (by decide))

/-- A deployment bound to the service account, whose record allows it to produce and nothing else. -/
def runnerRecord : Dataset :=
  Dataset.empty.extend (Rdf.Build.describeLocal "https://reg.example/instance/1"
    [(Ns.t Ns.tar "oidcClientId", .simple "system:serviceaccount:ci:runner"),
      (Ns.t Ns.tar "oidcIssuer", .simple "https://k8s.example"),
      (Ns.t Ns.tar "allowedScope", .simple "advertise:produce")])

def runnerBinding : InstanceBinding := ⟨"https://reg.example/instance/1", none, ["advertise:produce"], none⟩

def runnerPrincipal (scope : String) : Principal :=
  { clusterPrincipal scope with instanceIri := some "https://reg.example/instance/1" }

/-- The record withholds `register:instance`, and the token has it all the same. -/
theorem runner_token_widens :
    findBinding estate "https://k8s.example" (clusterToken "register:instance") runnerRecord =
      .ok (some runnerBinding) ∧
    principalFromClaims estate "https://k8s.example" (clusterToken "register:instance") runnerRecord =
      .ok (runnerPrincipal "register:instance") ∧
    ¬∀ scope ∈ (runnerPrincipal "register:instance").scopes, scope ∈ runnerBinding.allowedScopes :=
  ⟨ok_of_toOption (by decide), ok_of_toOption (by decide), by decide⟩

theorem runner_scopes_tightened_iff :
    ((∀ scope ∈ (runnerPrincipal "advertise:produce").scopes, scope ∈ runnerBinding.allowedScopes) ∧
      ((∃ scope, Carries estate (clusterToken "advertise:produce") scope) →
        ∀ scope ∈ (runnerPrincipal "advertise:produce").scopes,
          Carries estate (clusterToken "advertise:produce") scope)) ↔
    ∀ scope, Carries estate (clusterToken "advertise:produce") scope → scope ∈ runnerBinding.allowedScopes :=
  have bound : findBinding estate "https://k8s.example" (clusterToken "advertise:produce") runnerRecord =
      .ok (some runnerBinding) := ok_of_toOption (by decide)
  bound_scopes_tightened_iff bound (by decide) (ok_of_toOption (by decide))

end Runs

end ToolArtifactRegistry.Auth.Authority
