import ToolArtifactRegistry.Api.Guarding
import ToolArtifactRegistry.Library.Addresses

/-! Which addresses the guard on webhook targets lets through although they are not routed on the public internet,
and where a delivery may connect to. -/
namespace ToolArtifactRegistry.Laws

open Library.Addresses Library.Spans Api.Guarding

/-! The special-purpose blocks. -/

/-- The version 4 addresses with this prefix. -/
def net4 (a b c d len : Nat) : Span := block (((a * 256 + b) * 256 + c) * 256 + d) (32 - len)

/-- The number that groups of four hexadecimal digits stand for, zeros behind them. -/
def groups (given : List Nat) : Nat := (given ++ List.replicate (8 - given.length) 0).foldl (fun total group => total * 65536 + group) 0

def net6 (given : List Nat) (len : Nat) : Span := block (groups given) (128 - len)

/-- What is not global unicast among the version 4 addresses. -/
def reserved4 : List Span :=
  -- this host and this network, private use, shared space, loopback, link local
  [net4 0 0 0 0 32, ⟨1, 0xFFFFFF⟩, net4 10 0 0 0 8, net4 100 64 0 0 10, net4 127 0 0 0 8, net4 169 254 0 0 16, net4 172 16 0 0 12,
    -- protocol assignments but the two anycast addresses, documentation, relay anycast, private use
    ⟨0xC0000000, 0xC0000008⟩, ⟨0xC000000B, 0xC00000FF⟩, net4 192 0 2 0 24, net4 192 88 99 0 24, net4 192 168 0 0 16,
    -- benchmarking, documentation, multicast, reserved and broadcast
    net4 198 18 0 0 15, net4 198 51 100 0 24, net4 203 0 113 0 24, net4 224 0 0 0 4, net4 240 0 0 0 4, net4 255 255 255 255 32]

/-- What is not global unicast among the version 6 addresses, whatever they embed. -/
def reserved6 : List Span :=
  -- unspecified, loopback, local-use translation, discard only, dummy
  [net6 [] 128, net6 [0, 0, 0, 0, 0, 0, 0, 1] 128, net6 [0x64, 0xff9b, 1] 48, net6 [0x100] 64, net6 [0x100, 0, 0, 1] 64,
    -- protocol assignments but those that are reachable: anycast, relays and identifiers
    ⟨groups [0x2001], groups [0x2001, 1]⟩, ⟨groups [0x2001, 1, 0, 0, 0, 0, 0, 4], groups [0x2001, 3] - 1⟩,
    ⟨groups [0x2001, 4], groups [0x2001, 4, 0x112] - 1⟩, ⟨groups [0x2001, 4, 0x113], groups [0x2001, 0x20] - 1⟩,
    ⟨groups [0x2001, 0x40], groups [0x2001, 0x200] - 1⟩,
    -- documentation, segment routing, unique local, link local, site local, multicast
    net6 [0x2001, 0xdb8] 32, net6 [0x3fff] 20, net6 [0x5f00] 16, net6 [0xfc00] 7, net6 [0xfe80] 10, net6 [0xfec0] 10, net6 [0xff00] 8]

/-- Version 6 addresses that embed a version 4 one, and how many bits stand behind it. -/
structure Embedding where
  span : Span
  behind : Nat
  deriving DecidableEq

def Embedding.inner (embedding : Embedding) (n : Nat) : Nat := n / 2 ^ embedding.behind % 2 ^ 32

def mapped : Embedding := ⟨net6 [0, 0, 0, 0, 0, 0xffff] 96, 0⟩

def compatible : Embedding := ⟨net6 [] 96, 0⟩

def translated : Embedding := ⟨net6 [0x64, 0xff9b] 96, 0⟩

def sixToFour : Embedding := ⟨net6 [0x2002] 16, 80⟩

/-- Global unicast: in no special-purpose block, and embedding no address that is. -/
def Routed : IpAddr → Prop
  | .v4 bits => ¬Covers reserved4 bits.toNat
  | .v6 bits => ¬Covers reserved6 bits.toNat ∧
      ∀ embedding ∈ [mapped, compatible, translated, sixToFour], embedding.span.Holds bits.toNat →
        ¬Covers reserved4 (embedding.inner bits.toNat)

/-! What the guard refuses. -/

def refused4 : List Span :=
  [net4 10 0 0 0 8, net4 172 16 0 0 12, net4 192 168 0 0 16, net4 127 0 0 0 8, net4 169 254 0 0 16, net4 255 255 255 255 32,
    net4 192 0 2 0 24, net4 198 51 100 0 24, net4 203 0 113 0 24, net4 0 0 0 0 32, net4 224 0 0 0 4, net4 100 64 0 0 10,
    net4 192 0 0 0 24, net4 198 18 0 0 15, net4 240 0 0 0 4]

def refused6 : List Span :=
  [net6 [0, 0, 0, 0, 0, 0, 0, 1] 128, net6 [] 128, net6 [0xff00] 8, net6 [0xfc00] 7, net6 [0xfe80] 10]

section Octets

variable (bits : BitVec 32)

theorem octet_zero : octet bits 0 = bits.toNat / 16777216 := by
  have small := bits.isLt
  show bits.toNat / 16777216 % 256 = _
  omega

theorem octet_one : octet bits 1 = bits.toNat / 65536 % 256 := rfl

theorem octet_two : octet bits 2 = bits.toNat / 256 % 256 := rfl

/-- The addresses that begin with one octet. -/
theorem first_iff (a : Nat) : octet bits 0 = a ↔ (net4 a 0 0 0 8).Holds bits.toNat := by
  rw [octet_zero]
  show _ ↔ ((a * 256 + 0) * 256 + 0) * 256 + 0 ≤ bits.toNat ∧ bits.toNat ≤ ((a * 256 + 0) * 256 + 0) * 256 + 0 + 16777215
  omega

theorem second_iff (a b : Nat) (fits : b < 256) :
    octet bits 0 = a ∧ octet bits 1 = b ↔ (net4 a b 0 0 16).Holds bits.toNat := by
  rw [octet_zero, octet_one]
  show _ ↔ ((a * 256 + b) * 256 + 0) * 256 + 0 ≤ bits.toNat ∧ bits.toNat ≤ ((a * 256 + b) * 256 + 0) * 256 + 0 + 65535
  omega

theorem third_iff (a b c : Nat) (fits : b < 256) (fits' : c < 256) :
    (octet bits 0 = a ∧ octet bits 1 = b) ∧ octet bits 2 = c ↔ (net4 a b c 0 24).Holds bits.toNat := by
  rw [octet_zero, octet_one, octet_two]
  show _ ↔ ((a * 256 + b) * 256 + c) * 256 + 0 ≤ bits.toNat ∧ bits.toNat ≤ ((a * 256 + b) * 256 + c) * 256 + 0 + 255
  omega

/-- Where the second octet lies between two numbers. -/
theorem between_iff (a : Nat) (low high : Nat) (fits : high < 256) (span : Span) (same : span = ⟨(a * 256 + low) * 65536, (a * 256 + high) * 65536 + 65535⟩) :
    octet bits 0 = a ∧ low ≤ octet bits 1 ∧ octet bits 1 ≤ high ↔ span.Holds bits.toNat := by
  rw [octet_zero, octet_one, same]
  show _ ↔ (a * 256 + low) * 65536 ≤ bits.toNat ∧ bits.toNat ≤ (a * 256 + high) * 65536 + 65535
  omega

theorem refuses4_iff : isPublicIpv4 bits = false ↔ Covers refused4 bits.toNat := by
  have zero : bits = 0#32 ↔ (net4 0 0 0 0 32).Holds bits.toNat := by
    rw [← BitVec.toNat_inj]
    show bits.toNat = 0 ↔ 0 ≤ bits.toNat ∧ bits.toNat ≤ 0
    omega
  have ones : bits = 0xFFFFFFFF#32 ↔ (net4 255 255 255 255 32).Holds bits.toNat := by
    rw [← BitVec.toNat_inj]
    show bits.toNat = 4294967295 ↔ 4294967295 ≤ bits.toNat ∧ bits.toNat ≤ 4294967295
    omega
  have multicast : 224 ≤ octet bits 0 ∧ octet bits 0 ≤ 239 ↔ (net4 224 0 0 0 4).Holds bits.toNat := by
    rw [octet_zero]
    show _ ↔ 3758096384 ≤ bits.toNat ∧ bits.toNat ≤ 4026531839
    omega
  have above : 240 ≤ octet bits 0 ↔ (net4 240 0 0 0 4).Holds bits.toNat := by
    have small := bits.isLt
    rw [octet_zero]
    show _ ↔ 4026531840 ≤ bits.toNat ∧ bits.toNat ≤ 4294967295
    omega
  have private_ := between_iff bits 172 16 31 (by decide) (net4 172 16 0 0 12) (by decide)
  have shared : octet bits 0 = 100 ∧ 64 ≤ octet bits 1 ∧ octet bits 1 < 128 ↔ (net4 100 64 0 0 10).Holds bits.toNat := by
    rw [← between_iff bits 100 64 127 (by decide) (net4 100 64 0 0 10) (by decide)]
    omega
  have bench : octet bits 0 = 198 ∧ (octet bits 1 = 18 ∨ octet bits 1 = 19) ↔ (net4 198 18 0 0 15).Holds bits.toNat := by
    rw [← between_iff bits 198 18 19 (by decide) (net4 198 18 0 0 15) (by decide)]
    omega
  simp only [isPublicIpv4, isPrivate, isLoopback4, isLinkLocal, isBroadcast, isDocumentation, isUnspecified4, isMulticast4,
    Bool.not_eq_false', Bool.or_eq_true, Bool.and_eq_true, beq_iff_eq, decide_eq_true_eq, zero, ones, multicast, above]
  -- the longest prefixes first, since each holds a shorter one
  simp only [third_iff bits _ _ _ (show 0 < 256 by decide) (show 2 < 256 by decide),
    third_iff bits _ _ _ (show 51 < 256 by decide) (show 100 < 256 by decide),
    third_iff bits _ _ _ (show 0 < 256 by decide) (show 113 < 256 by decide),
    third_iff bits _ _ _ (show 0 < 256 by decide) (show 0 < 256 by decide), private_, shared, bench]
  simp only [second_iff bits _ _ (show 168 < 256 by decide), second_iff bits _ _ (show 254 < 256 by decide)]
  simp only [first_iff, refused4, covers_cons, not_covers_nil, or_false, or_assoc]

end Octets

section Segments

variable (bits : BitVec 128)

theorem segment_zero : (segment bits 0).toNat = bits.toNat / 2 ^ 112 := by
  have small := bits.isLt
  rw [Api.Guarding.segment, BitVec.extractLsb'_toNat, Nat.shiftRight_eq_div_pow]
  omega

/-- The addresses whose first bits are those of one segment. -/
theorem segment_iff (word mask : BitVec 16) (len : Nat) (span : Span) (same : mask = BitVec.allOnes 16 <<< (16 - len))
    (aligned : word.toNat % 2 ^ (16 - len) = 0) (shape : span = block (word.toNat * 2 ^ 112) (128 - len)) (short : len ≤ 16) :
    segment bits 0 &&& mask = word ↔ span.Holds bits.toNat := by
  have width : 2 ^ (128 - len) = 2 ^ (16 - len) * 2 ^ 112 := by
    rw [← Nat.pow_add]
    congr 1
    omega
  have pos : 0 < 2 ^ (16 - len) := Nat.two_pow_pos _
  rw [same, masked_eq_iff _ _ _ aligned, segment_zero, shape]
  unfold block Span.Holds
  dsimp only
  rw [width]
  omega

theorem mapped_iff : bits.extractLsb' 32 96 = 0xFFFF#96 ↔ mapped.span.Holds bits.toNat := by
  have small := bits.isLt
  rw [← BitVec.toNat_inj, BitVec.extractLsb'_toNat, Nat.shiftRight_eq_div_pow]
  show bits.toNat / 2 ^ 32 % 2 ^ 96 = 65535 ↔ 281470681743360 ≤ bits.toNat ∧ bits.toNat ≤ 281474976710655
  omega

theorem mapped_inner : (bits.extractLsb' 0 32).toNat = mapped.inner bits.toNat := by
  rw [BitVec.extractLsb'_toNat, Nat.shiftRight_zero]
  show _ = bits.toNat / 2 ^ 0 % 2 ^ 32
  rw [Nat.pow_zero, Nat.div_one]

theorem refuses6_iff : isPublicIp (.v6 bits) = false ↔
    Covers refused6 bits.toNat ∨ (mapped.span.Holds bits.toNat ∧ Covers refused4 (mapped.inner bits.toNat)) := by
  have loopback : bits = 1#128 ↔ (net6 [0, 0, 0, 0, 0, 0, 0, 1] 128).Holds bits.toNat := by
    rw [← BitVec.toNat_inj]
    show bits.toNat = 1 ↔ 1 ≤ bits.toNat ∧ bits.toNat ≤ 1
    omega
  have unspecified : bits = 0#128 ↔ (net6 [] 128).Holds bits.toNat := by
    rw [← BitVec.toNat_inj]
    show bits.toNat = 0 ↔ 0 ≤ bits.toNat ∧ bits.toNat ≤ 0
    omega
  have multicast := segment_iff bits 0xff00#16 0xff00#16 8 (net6 [0xff00] 8) (by decide) (by decide) (by decide) (by decide)
  have uniqueLocal := segment_iff bits 0xfc00#16 0xfe00#16 7 (net6 [0xfc00] 7) (by decide) (by decide) (by decide) (by decide)
  have linkLocal := segment_iff bits 0xfe80#16 0xffc0#16 10 (net6 [0xfe80] 10) (by decide) (by decide) (by decide) (by decide)
  have embedded : ((toIpv4Mapped bits).map (fun mapped => !isPublicIpv4 mapped)).getD false = true ↔
      mapped.span.Holds bits.toNat ∧ Covers refused4 (mapped.inner bits.toNat) := by
    rw [← mapped_iff, ← mapped_inner, ← refuses4_iff, toIpv4Mapped]
    by_cases here : bits.extractLsb' 32 96 = 0xFFFF#96
    · simp [here]
    · simp [here]
  simp only [isPublicIp, isLoopback6, isUnspecified6, isMulticast6, Bool.not_eq_false', Bool.or_eq_true, beq_iff_eq, embedded,
    loopback, unspecified, multicast, uniqueLocal, linkLocal]
  simp only [refused6, covers_cons, not_covers_nil, or_false, or_assoc]

end Segments

/-! What the guard misses. -/

/-- This network but for this host, and the relays' anycast addresses. -/
def missed4 : List Span := [⟨1, 0xFFFFFF⟩, net4 192 88 99 0 24]

/-- Every special-purpose block but the five that are refused. -/
def missed6 : List Span :=
  [net6 [0x64, 0xff9b, 1] 48, net6 [0x100] 64, net6 [0x100, 0, 0, 1] 64, ⟨groups [0x2001], groups [0x2001, 1]⟩,
    ⟨groups [0x2001, 1, 0, 0, 0, 0, 0, 4], groups [0x2001, 3] - 1⟩, ⟨groups [0x2001, 4], groups [0x2001, 4, 0x112] - 1⟩,
    ⟨groups [0x2001, 4, 0x113], groups [0x2001, 0x20] - 1⟩, ⟨groups [0x2001, 0x40], groups [0x2001, 0x200] - 1⟩,
    net6 [0x2001, 0xdb8] 32, net6 [0x3fff] 20, net6 [0x5f00] 16, net6 [0xfec0] 10]

/-- The embeddings the guard does not look into; the unspecified address and loopback are refused as such. -/
def unopened : List Embedding := [⟨⟨2, 0xFFFFFFFF⟩, 0⟩, translated, sixToFour]

def Missed : IpAddr → Prop
  | .v4 bits => Covers missed4 bits.toNat
  | .v6 bits => Covers missed6 bits.toNat ∨ (mapped.span.Holds bits.toNat ∧ Covers missed4 (mapped.inner bits.toNat)) ∨
      ∃ embedding ∈ unopened, embedding.span.Holds bits.toNat ∧ Covers reserved4 (embedding.inner bits.toNat)

section Missing

variable {n : Nat}

theorem reserved4_cases (reserved : Covers reserved4 n) : Covers refused4 n ∨ Covers missed4 n := by
  have inside : ∀ one ∈ reserved4, ∃ other ∈ refused4 ++ missed4, other.lo ≤ one.lo ∧ one.hi ≤ other.hi := by decide
  exact covers_append.1 (reserved.inside inside)

theorem missed4_reserved (missed : Covers missed4 n) : Covers reserved4 n ∧ ¬Covers refused4 n := by
  have apart : Apart missed4 refused4 := by decide
  have subset : missed4 ⊆ reserved4 := by decide
  exact ⟨missed.mono subset, apart.not_both missed⟩

theorem reserved6_cases (reserved : Covers reserved6 n) : Covers refused6 n ∨ Covers missed6 n := by
  have subset : reserved6 ⊆ refused6 ++ missed6 := by decide
  exact covers_append.1 (reserved.mono subset)

/-- An address in one of these spans is not refused. -/
theorem not_refused6 {spans : List Span} (apart : Apart spans (mapped.span :: refused6)) (covers : Covers spans n) :
    ¬(Covers refused6 n ∨ mapped.span.Holds n) := by
  have none_ := apart.not_both covers
  rw [covers_cons] at none_
  tauto

theorem guarded4_iff (bits : BitVec 32) :
    (¬Routed (.v4 bits) → isPublicIp (.v4 bits) = false) ↔ ¬Missed (.v4 bits) := by
  show (¬¬Covers reserved4 bits.toNat → isPublicIpv4 bits = false) ↔ ¬Covers missed4 bits.toNat
  rw [refuses4_iff, not_not]
  constructor
  · intro refused missed
    obtain ⟨reserved, not⟩ := missed4_reserved missed
    exact not (refused reserved)
  · intro caught reserved
    exact (reserved4_cases reserved).resolve_right caught

theorem guarded6_iff (bits : BitVec 128) :
    (¬Routed (.v6 bits) → isPublicIp (.v6 bits) = false) ↔ ¬Missed (.v6 bits) := by
  rw [refuses6_iff]
  constructor
  · rintro refused (missed | ⟨here, missed⟩ | ⟨embedding, mem, here, reserved⟩)
    · have apart : Apart missed6 (mapped.span :: refused6) := by decide
      have reserved : Covers reserved6 bits.toNat := missed.mono (by decide)
      have none_ := not_refused6 apart missed
      have either := refused (fun routed => routed.1 reserved)
      tauto
    · obtain ⟨reserved, none_⟩ := missed4_reserved missed
      have apart : Apart [mapped.span] refused6 := by decide
      have outside := apart.not_both ⟨_, List.mem_cons_self, here⟩
      have either := refused (fun routed => routed.2 mapped List.mem_cons_self here reserved)
      tauto
    · have apart : Apart (unopened.map Embedding.span) (mapped.span :: refused6) := by decide
      have none_ := not_refused6 apart ⟨_, List.mem_map_of_mem mem, here⟩
      have wider : ∀ small ∈ unopened, ∃ whole ∈ [mapped, compatible, translated, sixToFour],
          whole.behind = small.behind ∧ whole.span.lo ≤ small.span.lo ∧ small.span.hi ≤ whole.span.hi := by decide
      obtain ⟨whole, there, same, low, high⟩ := wider embedding mem
      have holds : whole.span.Holds bits.toNat := ⟨Nat.le_trans low here.1, Nat.le_trans here.2 high⟩
      have either := refused (fun routed => routed.2 whole there holds (by rw [Embedding.inner, same]; exact reserved))
      tauto
  · intro caught unrouted
    by_contra passed
    obtain ⟨outside, embeds⟩ := not_or.1 passed
    have notMissed : ¬Covers missed6 bits.toNat := fun missed => caught (Or.inl missed)
    have unreserved : ¬Covers reserved6 bits.toNat := fun reserved => (reserved6_cases reserved).elim outside notMissed
    apply unrouted
    refine ⟨unreserved, fun embedding mem here reserved => ?_⟩
    have unopened_ : embedding ∉ unopened := fun there => caught (Or.inr (Or.inr ⟨embedding, there, here, reserved⟩))
    simp only [List.mem_cons, List.not_mem_nil, or_false] at mem
    rcases mem with rfl | rfl | rfl | rfl
    · rcases reserved4_cases reserved with refused | missed
      · exact embeds ⟨here, refused⟩
      · exact caught (Or.inr (Or.inl ⟨here, missed⟩))
    · by_cases small : bits.toNat ≤ 1
      · have split : Covers refused6 bits.toNat := by
          rcases Nat.le_one_iff_eq_zero_or_eq_one.1 small with zero | one
          · rw [zero]
            decide
          · rw [one]
            decide
        exact outside split
      · have here : (⟨2, 0xFFFFFFFF⟩ : Span).Holds bits.toNat := by
          have high : bits.toNat ≤ 0xFFFFFFFF := here.2
          have low : 2 ≤ bits.toNat := by omega
          exact ⟨low, high⟩
        exact caught (Or.inr (Or.inr ⟨⟨⟨2, 0xFFFFFFFF⟩, 0⟩, List.mem_cons_self, here, reserved⟩))
    · exact unopened_ (by decide)
    · exact unopened_ (by decide)

end Missing

section Delivering

variable {network : Network} {url : Url} {settings : WebhookSettings}

/-- What is documented of the libraries, where they are asked about a URL: an address that is spelled out is looked up
as itself and connected to as it is, and a client connects for a name it overrides to the addresses it was given. -/
structure Documented (network : Network) (url : Url) : Prop where
  plain : ∀ ip, url.host = some (.address ip) → ∀ text, text = network.display ip ∨ text = "[" ++ network.display ip ++ "]" →
    trimBrackets text = network.display ip
  literal : ∀ ip, url.host = some (.address ip) → ∀ port, network.lookupHost (network.display ip) port = .ok [⟨ip, port⟩]
  direct : ∀ ip, url.host = some (.address ip) → ∀ client, ∀ a ∈ network.connects client url, a.ip = ip
  overrides : ∀ name plain, url.host = some (.domain name plain) → ∀ addrs client, network.resolveToAddrs name addrs = .ok client →
    ∀ a ∈ network.connects client url, ∃ b ∈ addrs, b.ip = a.ip

/-- With the guard on the addresses of a target are looked up, and all of them are public. -/
theorem resolved_public {pinned : List SocketAddr} (on : settings.allowPrivateTargets = false)
    (resolved : resolvePublicTargets network settings url = .ok pinned) :
    ∃ host, hostStr network url = some host ∧ network.lookupHost (trimBrackets host) (url.port.getD 443) = .ok pinned ∧
      pinned ≠ [] ∧ ∀ a ∈ pinned, isPublicIp a.ip = true := by
  unfold resolvePublicTargets at resolved
  rw [if_neg (by rw [on]; decide)] at resolved
  cases spelled : hostStr network url with
  | none => simp [spelled] at resolved
  | some host =>
    cases looked : network.lookupHost (trimBrackets host) (url.port.getD 443) with
    | error e => simp [spelled, looked] at resolved
    | ok addrs =>
      cases found : addrs.find? (fun a => !isPublicIp a.ip) with
      | some a => simp [spelled, looked, found] at resolved
      | none =>
        simp only [spelled, looked, found] at resolved
        split at resolved
        · cases resolved
        · rename_i some_
          cases resolved
          refine ⟨host, rfl, looked, fun none_ => some_ (by rw [none_]; rfl), fun a mem => ?_⟩
          simpa using List.find?_eq_none.1 found a mem

/-- With the guard on the bytes go to addresses it let through. -/
theorem connects_public (documented : Documented network url) (on : settings.allowPrivateTargets = false)
    {reached : List SocketAddr} (posted : postWebhook network settings url = .ok reached) :
    ∀ a ∈ reached, isPublicIp a.ip = true := by
  cases resolved : resolvePublicTargets network settings url with
  | error e =>
    simp [postWebhook, resolved, bind, Except.bind] at posted
  | ok pinned =>
    obtain ⟨host, spelled, looked, some_, public_⟩ := resolved_public on resolved
    cases made : pinnedClient network url pinned with
    | error e => simp [postWebhook, resolved, made, bind, Except.bind] at posted
    | ok client =>
      simp only [postWebhook, resolved, made, bind, Except.bind, pure, Except.pure, Except.ok.injEq] at posted
      rw [← posted]
      intro a mem
      cases at_ : url.host with
      | none => simp [hostStr, at_] at spelled
      | some place =>
        cases place with
        | address ip =>
          have text : trimBrackets host = network.display ip := by
            apply documented.plain ip at_
            cases ip <;> simp_all [hostStr]
          rw [text, documented.literal ip at_, Except.ok.injEq] at looked
          rw [documented.direct ip at_ client a mem]
          exact public_ ⟨ip, _⟩ (by rw [← looked]; exact List.mem_cons_self)
        | domain name plain =>
          have same : host = name := by simpa [hostStr, at_] using spelled.symm
          have empty : pinned.isEmpty = false := by simpa using some_
          unfold pinnedClient at made
          rw [empty, spelled, at_, same] at made
          cases built : network.resolveToAddrs name pinned with
          | error e => simp [plain, built] at made
          | ok other =>
            simp only [plain, built, Bool.false_eq_true, if_false, Except.ok.injEq] at made
            obtain ⟨b, held, same⟩ := documented.overrides name plain at_ pinned other built a (by rw [made]; exact mem)
            rw [← same]
            exact public_ b held

end Delivering

/-- The guard refuses every address that is not routed just where it misses none, and a delivery connects only to what
the guard let through. -/
theorem guard_misses_iff (network : Network) (url : Url) (documented : Documented network url) :
    (∀ ip, (¬Routed ip → isPublicIp ip = false) ↔ ¬Missed ip) ∧
      ∀ settings reached, settings.allowPrivateTargets = false → postWebhook network settings url = .ok reached →
        ∀ a ∈ reached, isPublicIp a.ip = true := by
  refine ⟨fun ip => ?_, fun settings reached on posted => connects_public documented on posted⟩
  cases ip with
  | v4 bits => exact guarded4_iff bits
  | v6 bits => exact guarded6_iff bits

/-- One name, at one address; a client is the addresses it was given. -/
def oneName : Network where
  display _ := "93.184.216.34"
  lookupHost _ port := .ok [⟨.v4 0x5DB8D822, port⟩]
  Client := List SocketAddr
  shared := []
  resolveToAddrs _ addrs := .ok addrs
  connects client _ := client

def receiver : Url := ⟨some (.domain "hooks.example.org" (by decide)), some 443⟩

theorem oneName_documented : Documented oneName receiver where
  plain _ other := by cases other
  literal _ other := by cases other
  direct _ other := by cases other
  overrides _ _ _ addrs client built a mem := by
    cases built
    exact ⟨a, mem, rfl⟩

theorem receiver_guarded : postWebhook oneName {} receiver = .ok [⟨.v4 0x5DB8D822, 443⟩] ∧ isPublicIp (.v4 0x5DB8D822) = true :=
  ⟨rfl, (guard_misses_iff oneName receiver oneName_documented).2 {} _ rfl rfl ⟨.v4 0x5DB8D822, 443⟩ (List.mem_singleton_self _)⟩

/-- Loopback behind the translation prefix is not routed, and passes. -/
theorem translated_loopback_passes : ¬Routed (.v6 0x0064ff9b00000000000000007f000001) ∧
    isPublicIp (.v6 0x0064ff9b00000000000000007f000001) = true := by
  refine ⟨fun routed => ?_, by decide⟩
  have embedded := routed.2 translated (by decide) (by decide)
  exact embedded (by decide)

end ToolArtifactRegistry.Laws
