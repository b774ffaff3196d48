import ToolArtifactRegistry.Laws.Guarding
import ToolArtifactRegistry.Probing

/-! What is asked although private targets are off. -/
namespace ToolArtifactRegistry.Laws.Reaching

open Library.Addresses Library.Spans Library.Text Api.Guarding Client Health

/-! The two lists of addresses. -/

/-- What a probe refuses among the version 4 addresses. -/
def listed4 : List Span :=
  [net4 127 0 0 0 8, net4 10 0 0 0 8, net4 172 16 0 0 12, net4 192 168 0 0 16, net4 169 254 0 0 16, net4 0 0 0 0 32]

/-- What only the guard on webhooks refuses: documentation, multicast, shared space, protocol assignments, benchmarking,
reserved and broadcast. -/
def overlooked4 : List Span :=
  [net4 192 0 2 0 24, net4 198 51 100 0 24, net4 203 0 113 0 24, net4 224 0 0 0 4, net4 100 64 0 0 10, net4 192 0 0 0 24,
    net4 198 18 0 0 15, net4 240 0 0 0 4]

/-- Loopback and the unspecified address. -/
def listed6 : List Span := [net6 [0, 0, 0, 0, 0, 0, 0, 1] 128, net6 [] 128]

/-- Multicast, unique local, link local. -/
def overlooked6 : List Span := [net6 [0xff00] 8, net6 [0xfc00] 7, net6 [0xfe80] 10]

/-- Refused as the target of a webhook, and not as the target of a probe. -/
def Overlooked : IpAddr → Prop
  | .v4 bits => Covers overlooked4 bits.toNat
  | .v6 bits => Covers overlooked6 bits.toNat ∨ (mapped.span.Holds bits.toNat ∧ Covers refused4 (mapped.inner bits.toNat))

theorem isPrivate4_iff (bits : BitVec 32) : isPrivateIp (.v4 bits) = true ↔ Covers listed4 bits.toNat := by
  have zero : bits = 0#32 ↔ (net4 0 0 0 0 32).Holds bits.toNat := by
    rw [← BitVec.toNat_inj]
    show bits.toNat = 0 ↔ 0 ≤ bits.toNat ∧ bits.toNat ≤ 0
    omega
  have private_ := between_iff bits 172 16 31 (by decide) (net4 172 16 0 0 12) (by decide)
  simp only [isPrivateIp, isPrivate, isLoopback4, isLinkLocal, isUnspecified4, Bool.or_eq_true, Bool.and_eq_true, beq_iff_eq,
    decide_eq_true_eq, zero, private_]
  -- the longer prefixes before the octet they begin with
  simp only [second_iff bits _ _ (show 168 < 256 by decide), second_iff bits _ _ (show 254 < 256 by decide)]
  simp only [first_iff, listed4, covers_cons, not_covers_nil, or_false, or_assoc]

theorem refused4_cases (n : Nat) : Covers refused4 n ↔ Covers listed4 n ∨ Covers overlooked4 n := by
  rw [← covers_append]
  constructor
  · apply Covers.inside
    decide
  · apply Covers.mono
    decide

theorem isPrivate6_iff (bits : BitVec 128) :
    isPrivateIp (.v6 bits) = true ↔ Covers listed6 bits.toNat := by
  have loopback : bits = 1#128 ↔ (net6 [0, 0, 0, 0, 0, 0, 0, 1] 128).Holds bits.toNat := by
    rw [← BitVec.toNat_inj]
    show bits.toNat = 1 ↔ 1 ≤ bits.toNat ∧ bits.toNat ≤ 1
    omega
  have unspecified : bits = 0#128 ↔ (net6 [] 128).Holds bits.toNat := by
    rw [← BitVec.toNat_inj]
    show bits.toNat = 0 ↔ 0 ≤ bits.toNat ∧ bits.toNat ≤ 0
    omega
  simp only [isPrivateIp, isLoopback6, isUnspecified6, Bool.or_eq_true, beq_iff_eq, loopback, unspecified, listed6,
    covers_cons, not_covers_nil, or_false]

theorem overlooked_iff (ip : IpAddr) : Overlooked ip ↔ isPublicIp ip = false ∧ isPrivateIp ip = false := by
  cases ip with
  | v4 bits =>
    have apart : Apart overlooked4 listed4 := by decide
    have one := refused4_cases bits.toNat
    rw [← Bool.not_eq_true (isPrivateIp _), isPrivate4_iff]
    show Covers overlooked4 bits.toNat ↔ isPublicIpv4 bits = false ∧ _
    rw [refuses4_iff, one]
    constructor
    · exact fun here => ⟨Or.inr here, apart.not_both here⟩
    · exact fun both => both.1.resolve_left both.2
  | v6 bits =>
    have apart : Apart (mapped.span :: overlooked6) listed6 := by decide
    have split : Covers refused6 bits.toNat ↔ Covers listed6 bits.toNat ∨ Covers overlooked6 bits.toNat :=
      @covers_append listed6 overlooked6 bits.toNat
    rw [← Bool.not_eq_true (isPrivateIp _), isPrivate6_iff, refuses6_iff, split]
    have outside : mapped.span.Holds bits.toNat ∨ Covers overlooked6 bits.toNat →
        ¬Covers listed6 bits.toNat := by
      rw [← covers_cons]
      exact apart.not_both
    unfold Overlooked
    tauto

/-! Where requests go. -/

/-- A host that is not to be asked. -/
def Refused : Host → Prop
  | .domain name _ => eqIgnoreAsciiCase name "localhost" = true
  | .address ip => isPublicIp ip = false

def Forbidden (url : HttpUrl) : Prop := ∃ host, url.host = some host ∧ Refused host

/-- What is documented of the text of an address: it is read back, and holds no brackets. -/
structure Spells (web : Web) (ip : IpAddr) : Prop where
  reads : parseIp (web.display ip) = some ip
  plain : ∀ c ∈ (web.display ip).toList, c ≠ '[' ∧ c ≠ ']'

section Spelling

variable {text : String}

theorem dropWhile_none {chars : List Char} {drop : Char → Bool} (none_ : ∀ c ∈ chars, drop c = false) :
    chars.dropWhile drop = chars := by
  cases chars with
  | nil => rfl
  | cons c rest =>
    apply List.dropWhile_cons_of_neg
    rw [none_ c List.mem_cons_self]
    decide

theorem unbracketed_plain (plain : ∀ c ∈ text.toList, c ≠ '[' ∧ c ≠ ']') : unbracketed text = text := by
  have front : text.toList.dropWhile (fun c => c == '[') = text.toList :=
    dropWhile_none (fun c mem => beq_false_of_ne (plain c mem).1)
  have back : text.toList.reverse.dropWhile (fun c => c == ']') = text.toList.reverse :=
    dropWhile_none (fun c mem => beq_false_of_ne (plain c (List.mem_reverse.1 mem)).2)
  unfold unbracketed trimEndMatches trimStartMatches
  rw [front, String.toList_ofList, back, List.reverse_reverse, String.ofList_toList]

theorem unbracketed_brackets (plain : ∀ c ∈ text.toList, c ≠ '[' ∧ c ≠ ']') : unbracketed ("[" ++ text ++ "]") = text := by
  have front : (text.toList ++ [']']).dropWhile (fun c => c == '[') = text.toList ++ [']'] := by
    apply dropWhile_none
    intro c mem
    rcases List.mem_append.1 mem with inside | last
    · exact beq_false_of_ne (plain c inside).1
    · rw [List.mem_singleton.1 last]
      rfl
  have back : text.toList.reverse.dropWhile (fun c => c == ']') = text.toList.reverse :=
    dropWhile_none (fun c mem => beq_false_of_ne (plain c (List.mem_reverse.1 mem)).2)
  have letters : ("[" ++ text ++ "]").toList = '[' :: (text.toList ++ [']']) := by
    rw [String.toList_append, String.toList_append]
    rfl
  unfold unbracketed trimEndMatches trimStartMatches
  rw [letters, List.dropWhile_cons_of_pos rfl, front, String.toList_ofList, List.reverse_append, List.reverse_singleton,
    List.singleton_append, List.dropWhile_cons_of_pos rfl, back, List.reverse_reverse, String.ofList_toList]

end Spelling

section Asking

variable {web : Web} {url : HttpUrl}

theorem unbracketed_hostStr {ip : IpAddr} (spells : Spells web ip) (at_ : url.host = some (.address ip)) :
    ∃ host, web.hostStr url = some host ∧ unbracketed host = web.display ip := by
  cases ip with
  | v4 bits => exact ⟨web.display (.v4 bits), by rw [Web.hostStr, at_]; rfl, unbracketed_plain spells.plain⟩
  | v6 bits => exact ⟨"[" ++ web.display (.v6 bits) ++ "]", by rw [Web.hostStr, at_]; rfl, unbracketed_brackets spells.plain⟩

/-- Of the URLs that pass the check only those at an overlooked address are forbidden. -/
theorem forbidden_iff (spells : ∀ ip, url.host = some (.address ip) → Spells web ip)
    (passed : (web.hostStr url).any isPrivateHost = false) :
    Forbidden url ↔ ∃ ip, url.host = some (.address ip) ∧ Overlooked ip := by
  have listed {ip : IpAddr} (at_ : url.host = some (.address ip)) : isPrivateIp ip = false := by
    obtain ⟨host, spelled, bare⟩ := unbracketed_hostStr (spells ip at_) at_
    rw [spelled, Option.any_some, isPrivateHost, bare, (spells ip at_).reads] at passed
    split at passed
    · cases passed
    · exact passed
  constructor
  · rintro ⟨host, at_, refused⟩
    cases host with
    | domain name plain =>
      have host : web.hostStr url = some name := by
        rw [Web.hostStr, at_]
        rfl
      have local_ : isPrivateHost name = true := by
        rw [isPrivateHost, if_pos]
        simp [show eqIgnoreAsciiCase name "localhost" = true from refused]
      rw [host, Option.any_some, local_] at passed
      cases passed
    | address ip => exact ⟨ip, at_, (overlooked_iff ip).2 ⟨refused, listed at_⟩⟩
  · rintro ⟨ip, at_, overlooked⟩
    exact ⟨.address ip, at_, ((overlooked_iff ip).1 overlooked).1⟩

/-- The check stops the request; or the first URL is at no overlooked address, and no redirect that is followed leads to a
forbidden one. -/
def Sheltered (web : Web) (redirects : List HttpUrl) (url : HttpUrl) : Prop :=
  (web.hostStr url).any isPrivateHost = true ∨
    (∀ ip, url.host = some (.address ip) → ¬Overlooked ip) ∧ ∀ hop ∈ follow redirects, ¬Forbidden hop

/-- The URL of a text, when a client can ask it. -/
def Leads (web : Web) (text : String) (url : HttpUrl) : Prop := web.parse text = .ok url ∧ url.isHttp = true

variable {redirects : List HttpUrl} {text : String}

/-- What is asked after the check. -/
theorem checked_iff (spells : ∀ url ip, web.parse text = .ok url → url.host = some (.address ip) → Spells web ip) :
    (((web.parse text).toOption.bind web.hostStr).any isPrivateHost = false →
      ∀ request ∈ requests web redirects text, ¬Forbidden request) ↔
      ∀ url, Leads web text url → Sheltered web redirects url := by
  unfold requests Leads Sheltered
  cases parsed : web.parse text with
  | error e => simp
  | ok first =>
    simp only [Except.toOption, Option.bind_some, Except.ok.injEq]
    by_cases asks : first.isHttp = true
    · cases check : (web.hostStr first).any isPrivateHost with
      | true => simp_all
      | false =>
        have forbidden := forbidden_iff (fun ip => spells first ip parsed) check
        simp only [asks, if_true, List.forall_mem_cons, forbidden, not_exists, not_and, forall_true_left]
        constructor
        · rintro both url ⟨rfl, _⟩
          exact Or.inr both
        · intro sheltered
          have either := sheltered first ⟨rfl, asks⟩
          rw [check] at either
          exact either.resolve_left (by decide)
    · simp only [asks, Bool.false_eq_true, if_false, List.not_mem_nil, false_implies, implies_true, true_iff]
      rintro url ⟨rfl, other⟩
      exact absurd other asks

end Asking

section Fetching

open Api.Apidocs

variable {web : Web} {redirects : List HttpUrl}

theorem probe_iff {settings : Settings} (off : settings.allowPrivate = false) {text : String}
    (spells : ∀ url ip, web.parse text = .ok url → url.host = some (.address ip) → Spells web ip) :
    (∀ request ∈ probeRequests settings web redirects text, ¬Forbidden request) ↔
      ∀ url, Leads web text url → Sheltered web redirects url := by
  rw [← checked_iff spells]
  unfold probeRequests withheld
  simp only [off, Bool.false_eq_true, if_false, Option.isSome_filter]
  cases ((web.parse text).toOption.bind web.hostStr).any isPrivateHost <;> simp

/-- What the guard of a fetch lets pass is the document the caller chose, at a host that is not on the list. -/
theorem allowed_ok_iff {software : Model.Software} {query : DocQuery} {text : String} :
    allowed web false software query = .ok text ↔ ∃ doc, software.apiDocs[query.n.getD 0]? = some doc ∧
      Library.Text.trim doc.url = text ∧ ∃ url, web.parse text = .ok url ∧ (url.scheme = "http" ∨ url.scheme = "https") ∧
        (web.hostStr url).any isPrivateHost = false := by
  unfold allowed
  dsimp only
  cases chosen : software.apiDocs[query.n.getD 0]? with
  | none => simp
  | some doc =>
    dsimp only
    simp only [Option.some.injEq, exists_eq_left']
    cases parsed : web.parse (Library.Text.trim doc.url) with
    | error e =>
      constructor
      · intro passes
        cases passes
      · rintro ⟨rfl, url, same, _⟩
        rw [parsed] at same
        cases same
    | ok url =>
      dsimp only
      by_cases scheme : url.scheme = "http" ∨ url.scheme = "https"
      · rw [if_neg (not_not_intro scheme)]
        cases listed : (web.hostStr url).any isPrivateHost with
        | true =>
          rw [if_pos (show (!false && true) = true from rfl)]
          constructor
          · intro passes
            cases passes
          · rintro ⟨rfl, other, same, _, clear_⟩
            rw [parsed] at same
            cases same
            rw [listed] at clear_
            cases clear_
        | false =>
          rw [if_neg (show ¬(!false && false) = true by decide), Except.ok.injEq]
          constructor
          · rintro rfl
            exact ⟨rfl, url, parsed, scheme, listed⟩
          · exact And.left
      · rw [if_pos scheme]
        constructor
        · intro passes
          cases passes
        · rintro ⟨rfl, other, same, right, _⟩
          rw [parsed] at same
          cases same
          exact absurd right scheme

theorem fetch_iff {software : Model.Software} {query : DocQuery} (cache : List (String × CachedDoc)) (now : Nat)
    (spells : ∀ text url ip, web.parse text = .ok url → url.host = some (.address ip) → Spells web ip) :
    (∀ request ∈ fetchRequests web false cache now redirects software query, ¬Forbidden request) ↔
      ∀ doc, software.apiDocs[query.n.getD 0]? = some doc → hit cache now query (Library.Text.trim doc.url) = none →
        ∀ url, Leads web (Library.Text.trim doc.url) url → Sheltered web redirects url := by
  unfold fetchRequests
  cases guard : allowed web false software query with
  | error e =>
    simp only [List.not_mem_nil, false_implies, implies_true, true_iff]
    intro doc chosen _ url leads
    by_contra open_
    have passes := allowed_ok_iff.2 ⟨doc, chosen, rfl, url, leads.1, (of_decide_eq_true (Bool.and_eq_true_iff.1 leads.2).2),
      Bool.eq_false_iff.2 (fun listed => open_ (Or.inl listed))⟩
    rw [guard] at passes
    cases passes
  | ok text =>
    obtain ⟨doc, chosen, rfl, url, parsed, _, clear_⟩ := allowed_ok_iff.1 guard
    have asked := @checked_iff web redirects _ (spells (Library.Text.trim doc.url))
    rw [parsed] at asked
    have open_ := asked.symm.trans (forall_prop_of_true clear_)
    cases held : hit cache now query (Library.Text.trim doc.url) with
    | some cached => simp [chosen, held]
    | none => simpa [chosen, held] using open_.symm

/-- With private targets off a probe, or a fetch that is not answered from the cache, stays away from them just where
the URL is sheltered. -/
theorem stays_public_iff {settings : Settings} (off : settings.allowPrivate = false)
    (spells : ∀ text url ip, web.parse text = .ok url → url.host = some (.address ip) → Spells web ip) :
    (∀ text, (∀ request ∈ probeRequests settings web redirects text, ¬Forbidden request) ↔
      ∀ url, Leads web text url → Sheltered web redirects url) ∧
    ∀ cache now software query,
      (∀ request ∈ fetchRequests web false cache now redirects software query, ¬Forbidden request) ↔
        ∀ doc, software.apiDocs[query.n.getD 0]? = some doc → hit cache now query (Library.Text.trim doc.url) = none →
          ∀ url, Leads web (Library.Text.trim doc.url) url → Sheltered web redirects url :=
  ⟨fun text => probe_iff off (spells text), fun cache now _ _ => fetch_iff cache now spells⟩

end Fetching

/-! A loopback address in the notation of version 6. -/

def loopback : IpAddr := .v6 0xFFFF7F000001

def loopbackUrl : HttpUrl := ⟨⟨some (.address loopback), some 80⟩, "http"⟩

/-- A web with this one URL. -/
def small : Web where
  parse text := if text = "http://[::ffff:7f00:1]/" then .ok loopbackUrl else .error "relative URL without a base"
  display _ := "::ffff:7f00:1"

def closed : Settings := { allowPrivate := false }

theorem small_spells (text : String) (url : HttpUrl) (ip : IpAddr) (parsed : small.parse text = .ok url)
    (at_ : url.host = some (.address ip)) : Spells small ip := by
  simp only [small] at parsed
  split at parsed
  · cases parsed
    cases at_
    exact ⟨by decide, by decide⟩
  · cases parsed

theorem small_checked : closed.allowPrivate = false ∧
    ((∀ request ∈ probeRequests closed small [] "http://[::ffff:7f00:1]/", ¬Forbidden request) ↔
      ∀ url, Leads small "http://[::ffff:7f00:1]/" url → Sheltered small [] url) :=
  ⟨rfl, (@stays_public_iff small [] closed rfl small_spells).1 "http://[::ffff:7f00:1]/"⟩

/-- The check lets the mapped address pass, and a probe asks the registry's own host. -/
theorem loopback_asked : ¬∀ redirects text, ∀ request ∈ probeRequests closed small redirects text, ¬Forbidden request := by
  intro safe
  have passed : (withheld closed small "http://[::ffff:7f00:1]/").isSome = false := by decide
  have asked : probeRequests closed small [] "http://[::ffff:7f00:1]/" = [loopbackUrl] := by
    rw [probeRequests, if_neg (by rw [passed]; decide)]
    rfl
  apply safe [] "http://[::ffff:7f00:1]/" loopbackUrl
  · rw [asked]
    exact List.mem_singleton_self _
  · exact ⟨_, rfl, show isPublicIp loopback = false by decide⟩

end ToolArtifactRegistry.Laws.Reaching
