import ToolArtifactRegistry.Auth.Authority
import ToolArtifactRegistry.Charging
import ToolArtifactRegistry.Laws.Specimen
import ToolArtifactRegistry.Library.Results

/-! A request is charged for what it does, to whoever does it. -/
namespace ToolArtifactRegistry.Laws

open Library.Text Library.Addresses Auth RateLimit Api.Search

/-- A search the router leads to its handler. -/
def SearchReached (method path : String) : Prop := path = "/api/v1/search" ∧ (method = "GET" ∨ method = "HEAD")

theorem typed_mem {α : Type} {read : String → Option α} {pairs : List (String × String)} {key : String} {value : α}
    (decoded : RateLimit.typed read pairs key = .ok (some value)) : ∃ text, (key, text) ∈ pairs ∧ read text = some value := by
  unfold RateLimit.typed at decoded
  cases given : Library.Forms.field pairs key with
  | error message =>
    rw [given] at decoded
    cases decoded
  | ok found =>
    cases found with
    | none =>
      rw [given] at decoded
      cases decoded
    | some text =>
      refine ⟨text, Library.Forms.field_mem given, ?_⟩
      rw [given] at decoded
      cases parsed : read text with
      | none =>
        simp only [parsed] at decoded
        cases decoded
      | some other =>
        simp only [parsed] at decoded
        exact Except.ok.inj decoded

theorem parseBool_true {text : String} (parsed : parseBool text = some true) : text = "true" := by
  unfold parseBool at parsed
  split at parsed
  · assumption
  · split at parsed <;> cases parsed

/-- What the handler reads as marked federated, or as an id, is there for the limiter to read. -/
theorem searchQuery_pairs {lossy : List UInt8 → String} {query : Option String} {sq : SearchQuery}
    (read : searchQuery lossy query = .ok sq) (takes : sq.federated = true ∨ sq.fedId.isSome = true) :
    isFederated lossy query = true := by
  unfold searchQuery at read
  obtain ⟨q, _, read⟩ := Library.Results.bind_ok.1 read
  obtain ⟨entityType, _, read⟩ := Library.Results.bind_ok.1 read
  obtain ⟨federated, marked, read⟩ := Library.Results.bind_ok.1 read
  obtain ⟨limit, _, read⟩ := Library.Results.bind_ok.1 read
  obtain ⟨fedId, identified, read⟩ := Library.Results.bind_ok.1 read
  obtain ⟨fedHops, _, read⟩ := Library.Results.bind_ok.1 read
  obtain ⟨fedOrigin, _, read⟩ := Library.Results.bind_ok.1 read
  obtain ⟨fedPath, _, read⟩ := Library.Results.bind_ok.1 read
  obtain ⟨fedBudgetMs, _, read⟩ := Library.Results.bind_ok.1 read
  have whole := Library.Results.pure_ok.1 read
  rw [← whole] at takes
  rw [isFederated, List.any_eq_true]
  rcases takes with flagged | carried
  · have given : federated = some true := by
      cases federated with
      | none => cases flagged
      | some value => exact congrArg some flagged
    rw [given] at marked
    obtain ⟨text, mem, parsed⟩ := typed_mem marked
    refine ⟨_, mem, ?_⟩
    rw [parseBool_true parsed]
    rfl
  · obtain ⟨id, given⟩ := Option.isSome_iff_exists.1 carried
    have same : fedId = some id := given
    rw [same] at identified
    exact ⟨_, Library.Forms.field_mem identified, by simp⟩

/-- A search that claims an id, or asks a peer, costs what a federated one does. -/
theorem classify_claiming {lossy : List UInt8 → String} {method path : String} {query : Option String} {sq : SearchQuery}
    (reached : SearchReached method path) (read : searchQuery lossy query = .ok sq)
    (takes : (∃ newId queryId, opening sq newId = .claims queryId) ∨ ∃ host peers, asked host sq peers ≠ []) :
    classify lossy method path query = some .federated := by
  have marked : sq.federated = true ∨ sq.fedId.isSome = true := by
    rcases takes with ⟨newId, queryId, opened⟩ | ⟨host, peers, some_⟩
    · unfold opening at opened
      split at opened
      · cases opened
      · split at opened
        · cases opened
        · split at opened
          · rename_i part
            exact Bool.or_eq_true _ _ ▸ part
          · cases opened
    · unfold asked at some_
      split at some_
      · rename_i both
        exact Or.inl both.1
      · exact absurd rfl some_
  have federated := searchQuery_pairs read marked
  rw [reached.1, classify, if_neg (by decide), if_neg (by decide), if_neg (by decide), if_pos ⟨rfl, federated⟩]

/-- The context of a caller that presents no credential, or one that is refused. -/
def Unproven (context : ClientContext) : Prop :=
  context.principal = .ok Principal.anonymous ∨ ∃ error, context.principal = .error error

theorem keyOf_unproven {context : ClientContext} (unproven : Unproven context) :
    keyOf context = some (.ip (bucket context.ip), false) := by
  rcases unproven with anonymous | ⟨error, refused⟩
  · rw [keyOf, anonymous]
    rfl
  · rw [keyOf, refused]

section

variable {σ : Type} (governor : Governor σ) (config : RateLimitConfig) (authenticate : String → AppResult Principal)

/-- Who a request comes from. -/
def contextFor : Origin → ClientContext
  | .outside caller => contextOf config authenticate caller
  | .inside context => context

/-- A request refused at the door, where the address has failed too often. -/
def Barred (now : Nat) (limits : RateLimits σ) : Origin → Prop
  | .outside caller => (barredFor config now limits caller).isSome = true
  | .inside _ => False

/-- The buckets of anonymous clients once this address is charged. -/
def chargedTo (now : Nat) (limits : RateLimits σ) (cls : RateLimit.Class) (limit : Limit) (ip : IpAddr) : RateLimit.Class → Key → σ :=
  charge limits.anon cls (.ip (bucket ip)) (governor.check limit now (limits.anon cls (.ip (bucket ip)))).2

theorem noteAuthFailure_buckets (now : Nat) (limits : RateLimits σ) (ip : IpAddr) :
    (noteAuthFailure governor config now limits ip).anon = limits.anon ∧
      (noteAuthFailure governor config now limits ip).authed = limits.authed := by
  unfold noteAuthFailure
  split
  · exact ⟨rfl, rfl⟩
  · dsimp only
    split <;> exact ⟨rfl, rfl⟩

/-- Resolving a request spends from no bucket of a class. -/
theorem resolve_buckets (now : Nat) (limits : RateLimits σ) (origin : Origin) :
    (resolve governor config authenticate now limits origin).2.anon = limits.anon ∧
      (resolve governor config authenticate now limits origin).2.authed = limits.authed := by
  cases origin with
  | inside context => exact ⟨rfl, rfl⟩
  | outside caller =>
    cases door : barredFor config now limits caller with
    | some refusal =>
      simp only [resolve, door]
      exact ⟨trivial, trivial⟩
    | none =>
      simp only [resolve, door]
      split
      · exact noteAuthFailure_buckets governor config now limits _
      · exact ⟨rfl, rfl⟩

theorem resolve_context {now : Nat} {limits : RateLimits σ} {origin : Origin} (open_ : ¬ Barred config now limits origin) :
    (resolve governor config authenticate now limits origin).1 = .ok (contextFor config authenticate origin) := by
  cases origin with
  | inside context => rfl
  | outside caller =>
    cases door : barredFor config now limits caller with
    | some refusal =>
      have barred : (barredFor config now limits caller).isSome = true := by rw [door]; rfl
      exact absurd barred open_
    | none =>
      simp only [resolve, door]
      rfl

theorem resolve_barred {now : Nat} {limits : RateLimits σ} {origin : Origin} (barred : Barred config now limits origin) :
    ∃ refusal, (resolve governor config authenticate now limits origin).1 = .error refusal := by
  cases origin with
  | inside context => exact absurd barred id
  | outside caller =>
    obtain ⟨refusal, door⟩ := Option.isSome_iff_exists.1 barred
    exact ⟨refusal, by simp only [resolve, door]⟩

theorem check_anon (now : Nat) (limits : RateLimits σ) (cls : RateLimit.Class) (key : Key) :
    (check governor config now limits cls key false).2.authed = limits.authed ∧
      (check governor config now limits cls key false).2.anon = match (config.limits cls).anon with
        | none => limits.anon
        | some limit => charge limits.anon cls key (governor.check limit now (limits.anon cls key)).2 := by
  unfold check
  cases (config.limits cls).anon with
  | none => exact ⟨rfl, rfl⟩
  | some limit =>
    simp only [Bool.false_eq_true, if_false]
    cases (governor.check limit now (limits.anon cls key)).1 <;> exact ⟨rfl, rfl⟩

/-- The buckets a request without a proven credential leaves. -/
theorem middleware_unproven {lossy : List UInt8 → String} {now : Nat} {limits : RateLimits σ} {req : Incoming}
    (unproven : Unproven (contextFor config authenticate req.origin)) :
    (middleware governor config lossy authenticate now limits req).2.authed = limits.authed ∧
      (((middleware governor config lossy authenticate now limits req).2.anon = limits.anon ∧
          (Barred config now limits req.origin ∨ config.enabled = false ∨ classify lossy req.method req.path req.query = none ∨
            ∃ cls, classify lossy req.method req.path req.query = some cls ∧ (config.limits cls).anon = none)) ∨
        ∃ cls limit, classify lossy req.method req.path req.query = some cls ∧ (config.limits cls).anon = some limit ∧
          (middleware governor config lossy authenticate now limits req).2.anon =
            chargedTo governor now limits cls limit (contextFor config authenticate req.origin).ip) := by
  obtain ⟨sameAnon, sameAuthed⟩ := resolve_buckets governor config authenticate now limits req.origin
  by_cases barred : Barred config now limits req.origin
  · obtain ⟨refusal, door⟩ := resolve_barred governor config authenticate barred
    have left : (middleware governor config lossy authenticate now limits req).2 =
        (resolve governor config authenticate now limits req.origin).2 := by
      unfold middleware
      generalize resolve governor config authenticate now limits req.origin = resolved at door
      obtain ⟨result, after⟩ := resolved
      simp only at door
      rw [door]
    rw [left]
    exact ⟨sameAuthed, Or.inl ⟨sameAnon, Or.inl barred⟩⟩
  · have context := resolve_context governor config authenticate barred
    have key := keyOf_unproven unproven
    unfold middleware
    generalize resolve governor config authenticate now limits req.origin = resolved at context sameAnon sameAuthed
    obtain ⟨result, after⟩ := resolved
    simp only at context sameAnon sameAuthed
    rw [context]
    dsimp only
    by_cases disabled : config.enabled = false
    · rw [if_pos disabled]
      exact ⟨sameAuthed, Or.inl ⟨sameAnon, Or.inr (Or.inl disabled)⟩⟩
    · rw [if_neg disabled]
      cases sorted : classify lossy req.method req.path req.query with
      | none => exact ⟨sameAuthed, Or.inl ⟨sameAnon, Or.inr (Or.inr (Or.inl rfl))⟩⟩
      | some cls =>
        simp only [key]
        obtain ⟨authed, anon⟩ := check_anon governor config now after cls (.ip (bucket (contextFor config authenticate req.origin).ip))
        refine ⟨authed.trans sameAuthed, ?_⟩
        cases side : (config.limits cls).anon with
        | none =>
          rw [side] at anon
          exact Or.inl ⟨anon.trans sameAnon, Or.inr (Or.inr (Or.inr ⟨cls, rfl, side⟩))⟩
        | some limit =>
          rw [side] at anon
          refine Or.inr ⟨cls, limit, rfl, side, ?_⟩
          rw [anon, sameAnon]
          rfl

end

theorem append_sep_inj {sep : Char} {a b c d : List Char} (left : sep ∉ a) (right : sep ∉ c)
    (same : a ++ sep :: b = c ++ sep :: d) : a = c ∧ b = d := by
  induction a generalizing c with
  | nil =>
    cases c with
    | nil => exact ⟨rfl, (List.cons.inj same).2⟩
    | cons e rest => exact absurd ((List.cons.inj same).1 ▸ List.mem_cons_self) right
  | cons e rest ih =>
    cases c with
    | nil => exact absurd ((List.cons.inj same).1 ▸ List.mem_cons_self) left
    | cons f more =>
      obtain ⟨head, tail⟩ := List.cons.inj same
      obtain ⟨first, second⟩ := ih (fun mem => left (List.mem_cons_of_mem _ mem)) (fun mem => right (List.mem_cons_of_mem _ mem)) tail
      exact ⟨by rw [head, first], second⟩

/-- The keys of a registry's document are fetched from an address below the issuer, which for an empty one is none. -/
def NoEmptyIssuer (platform : Platform) : Prop := ∀ audiences token, ∃ message, platform.jwtClaims "" audiences token = .error message

/-- An issuer a principal is from is not empty. -/
theorem issuer_of_authenticate {server : Server} {state : State} {now raw : String} {p : Principal}
    (nonempty : NoEmptyIssuer server.platform) (proven : Auth.authenticate server state now raw = .ok p) : p.issuer ≠ some "" := by
  unfold Auth.authenticate at proven
  split at proven
  · rw [← Except.ok.inj proven]
    exact fun same => by cases same
  · split at proven
    · split at proven
      · rw [← Except.ok.inj proven]
        exact fun same => by cases same
      · cases proven
    · split at proven
      · unfold authenticateJwt at proven
        simp only at proven
        split at proven
        · cases proven
        · split at proven
          · cases proven
          · rename_i issuer _
            split at proven
            · split at proven
              · cases proven
              · rename_i claims verified
                have filled : issuer ≠ "" := by
                  rintro rfl
                  obtain ⟨message, refused⟩ := nonempty (acceptedAudiences server.config) raw
                  rw [refused] at verified
                  cases verified
                have from_ : p.issuer = some issuer := by
                  rcases Authority.principalFromClaims_cases proven with ⟨binding, _, rfl⟩ | ⟨_, software, rfl⟩ <;> rfl
                rw [from_]
                exact fun same => filled (Option.some.inj same)
            · cases proven
      · cases proven

/-- Different callers have different keys, as long as no issuer has a vertical bar. -/
theorem principalKey_inj {p q : Principal} (filled : p.issuer ≠ some "" ∧ q.issuer ≠ some "")
    (clean : (∀ issuer ∈ p.issuer, '|' ∉ issuer.toList) ∧ ∀ issuer ∈ q.issuer, '|' ∉ issuer.toList)
    (same : principalKey p = principalKey q) : p.issuer = q.issuer ∧ p.subject = q.subject := by
  have bar : ∀ r : Principal, (∀ issuer ∈ r.issuer, '|' ∉ issuer.toList) → '|' ∉ (r.issuer.getD "").toList := by
    intro r free
    cases given : r.issuer with
    | none => decide
    | some issuer => exact free issuer given
  have letters := congrArg String.toList same
  simp only [principalKey, String.toList_append, List.append_assoc] at letters
  obtain ⟨issuers, subjects⟩ := append_sep_inj (bar p clean.1) (bar q clean.2) letters
  refine ⟨?_, String.toList_inj.1 subjects⟩
  have texts : p.issuer.getD "" = q.issuer.getD "" := String.toList_inj.1 issuers
  cases first : p.issuer with
  | none =>
    cases second : q.issuer with
    | none => rfl
    | some issuer =>
      rw [first, second] at texts
      exact absurd (second.trans (congrArg some texts.symm)) filled.2
  | some issuer =>
    cases second : q.issuer with
    | none =>
      rw [first, second] at texts
      exact absurd (first.trans (congrArg some texts)) filled.1
    | some other =>
      rw [first, second] at texts
      exact congrArg some texts

/-- A federated search costs what one does, an unproven caller is charged by its address, and callers who differ in
issuer or subject have different keys. -/
theorem charged_for_what_it_does {σ : Type} (governor : Governor σ) (config : RateLimitConfig) (lossy : List UInt8 → String)
    (server : Server) (nonempty : NoEmptyIssuer server.platform) :
    (∀ method path query sq, SearchReached method path → searchQuery lossy query = .ok sq →
      ((∃ newId queryId, opening sq newId = .claims queryId) ∨ ∃ host peers, asked host sq peers ≠ []) →
        classify lossy method path query = some .federated) ∧
    (∀ state clock now (limits : RateLimits σ) req,
      let authenticate := Auth.authenticate server state clock
      let context := contextFor config authenticate req.origin
      let after := (middleware governor config lossy authenticate now limits req).2
      Unproven context → after.authed = limits.authed ∧
        ((after.anon = limits.anon ∧ (Barred config now limits req.origin ∨ config.enabled = false ∨
            classify lossy req.method req.path req.query = none ∨
            ∃ cls, classify lossy req.method req.path req.query = some cls ∧ (config.limits cls).anon = none)) ∨
          ∃ cls limit, classify lossy req.method req.path req.query = some cls ∧ (config.limits cls).anon = some limit ∧
            after.anon = chargedTo governor now limits cls limit context.ip)) ∧
    (∀ state clock raw p state' clock' raw' q, Auth.authenticate server state clock raw = .ok p →
      Auth.authenticate server state' clock' raw' = .ok q →
      (∀ issuer ∈ p.issuer, '|' ∉ issuer.toList) → (∀ issuer ∈ q.issuer, '|' ∉ issuer.toList) →
      (p.issuer, p.subject) ≠ (q.issuer, q.subject) → principalKey p ≠ principalKey q) := by
  refine ⟨?_, ?_, ?_⟩
  · intro method path query sq reached read takes
    exact classify_claiming reached read takes
  · intro state clock now limits req authenticate context after unproven
    exact middleware_unproven governor config authenticate unproven
  · intro state clock raw p state' clock' raw' q first second cleanP cleanQ differ same
    have filled := And.intro (issuer_of_authenticate nonempty first) (issuer_of_authenticate nonempty second)
    obtain ⟨issuers, subjects⟩ := principalKey_inj filled ⟨cleanP, cleanQ⟩ same
    exact differ (by rw [issuers, subjects])

/-- A limiter that counts, and never lets go. -/
def counting : Governor Nat where
  fresh := 0
  check limit _ spent := if spent < limit.burst then (.inl (limit.burst - spent - 1), spent + 1) else (.inr 60, spent)

/-- Bytes read as text, each a character. -/
def narrow (bytes : List UInt8) : String := String.ofList (bytes.map (fun byte => Char.ofNat byte.toNat))

/-- The mark of a federated search, one letter of it escaped. -/
def escapedMark : SearchQuery := { q := some "a", federated := true }

/-- An escaped mark costs what a plain one does. -/
theorem escaped_mark_charged : NoEmptyIssuer (Specimen.platform []) ∧
    classify narrow "GET" "/api/v1/search" (some "q=a&federated=%74rue") = some .federated := by
  have nonempty : NoEmptyIssuer (Specimen.registry []).platform := fun _ _ => ⟨"unknown", rfl⟩
  have read : searchQuery narrow (some "q=a&federated=%74rue") = .ok escapedMark := by rfl
  exact ⟨nonempty, (charged_for_what_it_does counting .default narrow (Specimen.registry []) nonempty).1 _ _ _ escapedMark
    ⟨rfl, Or.inl rfl⟩ read (Or.inl ⟨"id", "id", by rfl⟩)⟩

end ToolArtifactRegistry.Laws
