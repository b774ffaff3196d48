import ToolArtifactRegistry.ClientAddress
import ToolArtifactRegistry.Library.Addresses

/-! The address a request is charged to, as two requests compare that differ in what their clients made up. -/
namespace ToolArtifactRegistry.Laws

open Library.Text Library.Addresses RateLimit

variable {trusted : List Cidr}

/-- An entry that names a trusted proxy; one that is no address names none. -/
def namesProxy (trusted : List Cidr) (entry : String) : Bool :=
  (parseIp entry).any (fun ip => isTrusted trusted (canonical ip))

/-- Whatever stands behind an entry that names no proxy, the walk has ended. -/
theorem walk_stop {client : IpAddr} {entry : String} (stop : namesProxy trusted entry = false)
    (rest other : List String) : walk trusted client (entry :: rest) = walk trusted client (entry :: other) := by
  unfold namesProxy at stop
  unfold walk
  cases parsed : parseIp entry with
  | none => rfl
  | some ip =>
    have held : ¬ isTrusted trusted (canonical ip) = true := by simpa [parsed] using stop
    show (if isTrusted trusted (canonical ip) = true then _ else canonical ip) =
      if isTrusted trusted (canonical ip) = true then _ else canonical ip
    rw [if_neg held, if_neg held]

/-- The walk over some entries that do not all name proxies is over before the next ones. -/
theorem walk_append (client : IpAddr) {near : List String} (stops : ∃ entry ∈ near, namesProxy trusted entry = false)
    (far : List String) : walk trusted client (near ++ far) = walk trusted client near := by
  induction near generalizing client with
  | nil =>
    obtain ⟨entry, mem, _⟩ := stops
    cases mem
  | cons entry near ih =>
    by_cases stop : namesProxy trusted entry = false
    · exact walk_stop stop (near ++ far) near
    · have proxy : namesProxy trusted entry = true := by simpa using stop
      have later : ∃ entry ∈ near, namesProxy trusted entry = false := by
        obtain ⟨other, mem, none_⟩ := stops
        rcases List.mem_cons.mp mem with same | deeper
        · rw [same] at none_
          exact absurd none_ stop
        · exact ⟨other, deeper, none_⟩
      unfold namesProxy at proxy
      rw [List.cons_append]
      unfold walk
      cases parsed : parseIp entry with
      | none => rfl
      | some ip =>
        show (if isTrusted trusted (canonical ip) = true then walk trusted (canonical ip) (near ++ far) else canonical ip) =
          if isTrusted trusted (canonical ip) = true then walk trusted (canonical ip) near else canonical ip
        rw [ih (canonical ip) later]

/-- What stands to the left of a comma is read after what stands to its right. -/
theorem entries_append (left right : String) :
    entries (some (left ++ "," ++ right)) = entries (some right) ++ entries (some left) := by
  have chars : (left ++ "," ++ right).toList = left.toList ++ ',' :: right.toList := by simp
  have pieces : split (left ++ "," ++ right) (fun c => c == ',') =
      split left (fun c => c == ',') ++ split right (fun c => c == ',') := by
    unfold split
    rw [chars, piecesOn_append_sep _ _ _ ',' (by decide), List.map_append]
  show (((split (left ++ "," ++ right) (fun c => c == ',')).reverse).map trim).filter _ = _
  rw [pieces, List.reverse_append, List.map_append, List.filter_append]
  rfl

/-- What stands to the left of a part that does not name proxies only is never reached. -/
theorem clientIp_append (peer : IpAddr) {part : String}
    (stops : ∃ entry ∈ entries (some part), namesProxy trusted entry = false) (left : String) :
    clientIp peer (some (left ++ "," ++ part)) trusted = clientIp peer (some part) trusted := by
  unfold clientIp
  rw [entries_append, walk_append _ stops]

theorem clientIp_stranger {peer : IpAddr} (stranger : isTrusted trusted (canonical peer) = false)
    (header : Option String) : clientIp peer header trusted = canonical peer := by
  unfold clientIp
  rw [if_neg (by simp [stranger])]

/-- A header counts from the right-most entry that names no trusted proxy: whatever stands to the left of a part
with such an entry in it, or nothing at all, the request is charged to the same address. And the header of a
peer that is no trusted proxy does not count. -/
theorem client_cannot_choose (trusted : List Cidr) (peer : IpAddr) :
    (∀ part, (∃ entry ∈ entries (some part), namesProxy trusted entry = false) → ∀ left other,
      clientIp peer (some (left ++ "," ++ part)) trusted = clientIp peer (some (other ++ "," ++ part)) trusted ∧
      clientIp peer (some (left ++ "," ++ part)) trusted = clientIp peer (some part) trusted) ∧
    (isTrusted trusted (canonical peer) = false → ∀ header other,
      clientIp peer header trusted = clientIp peer other trusted ∧ clientIp peer header trusted = canonical peer) := by
  constructor
  · intro part stops left other
    rw [clientIp_append peer stops left, clientIp_append peer stops other]
    exact ⟨rfl, rfl⟩
  · intro stranger header other
    rw [clientIp_stranger stranger header, clientIp_stranger stranger other]
    exact ⟨rfl, rfl⟩

end ToolArtifactRegistry.Laws

/-! Which addresses a block holds, and which are charged together. An address that has a form of version 4
is taken in that form before anything is compared. -/
namespace ToolArtifactRegistry.Laws

open Library.Text Library.Addresses Library.Masks RateLimit

/-- The bits of an address, the most significant first. -/
def bitAt (ip : IpAddr) (i : Nat) : Bool :=
  match ip with
  | .v4 bits => bits.getMsbD i
  | .v6 bits => bits.getMsbD i

/-- Two addresses of one family that begin with the same bits. -/
def Begins (len : Nat) (ip other : IpAddr) : Prop :=
  ip.isIpv4 = other.isIpv4 ∧ ∀ i < len, bitAt ip i = bitAt other i

/-- What a text says of a block: its network, in the form of version 4 when it has one, and how many bits count. -/
inductive Spelled (text : String) : IpAddr → Nat → Prop where
  | bare {network : IpAddr} (whole : splitOnce (trim text) '/' = none)
      (named : (parseIp (trim (trim text))).map canonical = some network) : Spelled text network network.width
  | block {address length : String} {network : IpAddr} {len : Nat} (parts : splitOnce (trim text) '/' = some (address, length))
      (named : (parseIp (trim address)).map canonical = some network) (counted : parseU64 (trim length) = some len) :
      Spelled text network len

/-- One version 4 address, or one block of 64 bits of version 6. -/
def SameHost (ip other : IpAddr) : Prop :=
  match canonical ip, canonical other with
  | .v4 left, .v4 right => left = right
  | .v6 left, .v6 right => ∀ i < 64, left.getMsbD i = right.getMsbD i
  | _, _ => False

section Checked

/-- The distance a mask is shifted by, where the machine has it: the length is subtracted from the width, and
a shift by the width or more overflows. -/
def shiftBy (width len : Nat) : Option Nat := if len ≤ width ∧ width - len < width then some (width - len) else none

/-- The mask in the machine's own operations. -/
def maskChecked (ip : IpAddr) (len : Nat) : Option IpAddr :=
  match ip with
  | .v4 bits =>
    if len = 0 then some (.v4 (bits &&& 0)) else (shiftBy 32 len).map (fun n => .v4 (bits &&& BitVec.allOnes 32 <<< n))
  | .v6 bits =>
    if len = 0 then some (.v6 (bits &&& 0)) else (shiftBy 128 len).map (fun n => .v6 (bits &&& BitVec.allOnes 128 <<< n))

/-- The families are compared first, so that no length meets a shorter address. -/
def containsChecked (cidr : Cidr) (ip : IpAddr) : Option Bool :=
  if (canonical ip).isIpv4 == cidr.net.isIpv4 then
    (maskChecked (canonical ip) cidr.len).map (fun masked => decide (masked = cidr.net))
  else some false

theorem maskChecked_eq {ip : IpAddr} {len : Nat} (fits : len ≤ ip.width) : maskChecked ip len = some (mask ip len) := by
  cases ip with
  | v4 bits =>
    have bound : len ≤ 32 := fits
    by_cases empty : len = 0
    · simp [maskChecked, mask, empty]
    · have small : 32 - len < 32 := by omega
      simp only [maskChecked, mask, shiftBy, empty, if_false, bound, small, and_self, if_true, Option.map_some]
  | v6 bits =>
    have bound : len ≤ 128 := fits
    by_cases empty : len = 0
    · simp [maskChecked, mask, empty]
    · have small : 128 - len < 128 := by omega
      simp only [maskChecked, mask, shiftBy, empty, if_false, bound, small, and_self, if_true, Option.map_some]

theorem width_of_family {ip other : IpAddr} (same : ip.isIpv4 = other.isIpv4) : ip.width = other.width := by
  cases ip <;> cases other <;> first | rfl | cases same

theorem containsChecked_eq (cidr : Cidr) (ip : IpAddr) : containsChecked cidr ip = some (cidr.contains ip) := by
  unfold containsChecked Cidr.contains
  by_cases family : (canonical ip).isIpv4 = cidr.net.isIpv4
  · have fits : cidr.len ≤ (canonical ip).width := width_of_family family ▸ cidr.bounded
    rw [if_pos (beq_iff_eq.2 family), maskChecked_eq fits, Option.map_some, beq_iff_eq.2 family, Bool.true_and]
  · have apart : ((canonical ip).isIpv4 == cidr.net.isIpv4) = false := beq_eq_false_iff_ne.2 family
    rw [apart]
    rfl

end Checked

section Masking

theorem mask_v4 (bits : BitVec 32) (len : Nat) : mask (.v4 bits) len = .v4 (bits &&& Library.Masks.leading 32 len) := rfl

theorem mask_v6 (bits : BitVec 128) (len : Nat) : mask (.v6 bits) len = .v6 (bits &&& Library.Masks.leading 128 len) := rfl

theorem mask_eq_iff {ip other : IpAddr} {len : Nat} (fits : len ≤ ip.width) :
    ip.isIpv4 = other.isIpv4 ∧ mask ip len = mask other len ↔ Begins len ip other := by
  unfold Begins
  apply and_congr_right
  intro family
  cases ip with
  | v4 left =>
    cases other with
    | v4 right =>
      rw [mask_v4, mask_v4, IpAddr.v4.injEq]
      exact masked_eq_iff fits left right
    | v6 right => cases family
  | v6 left =>
    cases other with
    | v4 right => cases family
    | v6 right =>
      rw [mask_v6, mask_v6, IpAddr.v6.injEq]
      exact masked_eq_iff fits left right

theorem isIpv4_mask (ip : IpAddr) (len : Nat) : (mask ip len).isIpv4 = ip.isIpv4 := by
  cases ip <;> rfl

/-- Whoever gets a block from a text gets the network of the text, masked. -/
theorem parse_spelled {text : String} {cidr : Cidr} (parsed : Cidr.parse text = some cidr) :
    ∃ network, Spelled text network cidr.len ∧ cidr.net = mask network cidr.len ∧ cidr.len ≤ network.width := by
  unfold Cidr.parse at parsed
  cases parts : splitOnce (trim text) '/' with
  | none =>
    simp only [parts] at parsed
    cases spelled : (parseIp (trim (trim text))).map canonical with
    | none => simp [spelled] at parsed
    | some network =>
      simp only [spelled, Nat.le_refl, dite_true, Option.some.injEq] at parsed
      subst parsed
      exact ⟨network, .bare parts spelled, rfl, Nat.le_refl _⟩
  | some pair =>
    obtain ⟨address, length⟩ := pair
    simp only [parts] at parsed
    cases spelled : (parseIp (trim address)).map canonical with
    | none => simp [spelled] at parsed
    | some network =>
      simp only [spelled] at parsed
      cases written : parseU64 (trim length) with
      | none => simp [written] at parsed
      | some len =>
        simp only [written] at parsed
        split at parsed
        · rename_i bounded
          obtain rfl := Option.some.inj parsed
          exact ⟨network, .block parts spelled written, rfl, bounded⟩
        · cases parsed

theorem block_contains_iff {cidr : Cidr} {network : IpAddr} (net : cidr.net = mask network cidr.len)
    (fits : cidr.len ≤ network.width) (ip : IpAddr) : cidr.contains ip = true ↔ Begins cidr.len network (canonical ip) := by
  rw [← mask_eq_iff fits, Cidr.contains, Bool.and_eq_true, beq_iff_eq, decide_eq_true_eq, net, isIpv4_mask]
  exact and_congr eq_comm eq_comm

/-- No address under a block of 64 bits has a form of version 4. -/
theorem canonical_masked (bits : BitVec 128) : canonical (mask (.v6 bits) 64) = mask (.v6 bits) 64 := by
  rw [mask_v6, canonical, if_neg]
  intro mapped
  have bit := congrArg (fun word => word.getLsbD 0) mapped
  have cleared : (bits &&& Library.Masks.leading 128 64).getLsbD 32 = false := by
    have msb := getMsbD_masked (show 64 ≤ 128 by omega) bits 95
    rw [BitVec.getMsbD_eq_getLsbD] at msb
    simpa using msb
  rw [BitVec.getLsbD_extractLsb', Nat.add_zero, cleared, Bool.and_false] at bit
  revert bit
  decide

theorem bucket_eq (ip other : IpAddr) : bucket ip = bucket other ↔ SameHost ip other := by
  unfold bucket SameHost
  cases canonical ip with
  | v4 left =>
    cases canonical other with
    | v4 right => exact IpAddr.v4.injEq _ _ ▸ Iff.rfl
    | v6 right => simp [mask_v6]
  | v6 left =>
    cases canonical other with
    | v4 right => simp [mask_v6]
    | v6 right =>
      dsimp only
      rw [mask_v6, mask_v6, IpAddr.v6.injEq]
      exact masked_eq_iff (by omega) left right

theorem bucket_again (ip : IpAddr) : bucket (bucket ip) = bucket ip := by
  unfold bucket
  cases canonical ip with
  | v4 bits => rfl
  | v6 bits =>
    dsimp only
    rw [canonical_masked, mask_v6]
    dsimp only
    rw [mask_v6, masked_again]

end Masking

/-- A block that was parsed holds just the addresses that begin like its network, none of its operations overflows,
and the addresses of one host, and no others, are charged together. -/
theorem membership_exact :
    (∀ text cidr, Cidr.parse text = some cidr → ∃ network, Spelled text network cidr.len ∧
      maskChecked network cidr.len = some cidr.net ∧
      ∀ ip, containsChecked cidr ip = some (cidr.contains ip) ∧
        (cidr.contains ip = true ↔ Begins cidr.len network (canonical ip))) ∧
    (∀ ip other, bucket ip = bucket other ↔ SameHost ip other) ∧ ∀ ip, bucket (bucket ip) = bucket ip := by
  constructor
  · intro text cidr parsed
    obtain ⟨network, spelled, net, fits⟩ := parse_spelled parsed
    have masked : maskChecked network cidr.len = some cidr.net := by
      rw [net]
      exact maskChecked_eq fits
    have counted : ∀ ip, containsChecked cidr ip = some (cidr.contains ip) ∧
        (cidr.contains ip = true ↔ Begins cidr.len network (canonical ip)) :=
      fun ip => ⟨containsChecked_eq cidr ip, block_contains_iff net fits ip⟩
    exact ⟨network, spelled, masked, counted⟩
  · exact ⟨bucket_eq, bucket_again⟩

/-- A block given by a mapped address is one of version 4. -/
theorem mapped_block_exact : ∃ cidr network, Cidr.parse "::ffff:10.0.0.0/8" = some cidr ∧
    Spelled "::ffff:10.0.0.0/8" network cidr.len ∧ ∀ ip, cidr.contains ip = true ↔ Begins cidr.len network (canonical ip) := by
  have accepted : (Cidr.parse "::ffff:10.0.0.0/8").isSome = true := by decide
  obtain ⟨cidr, parsed⟩ := Option.isSome_iff_exists.1 accepted
  obtain ⟨network, spelled, _, held⟩ := membership_exact.1 _ cidr parsed
  exact ⟨cidr, network, parsed, spelled, fun ip => (held ip).2⟩

end ToolArtifactRegistry.Laws
