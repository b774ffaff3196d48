import ToolArtifactRegistry.Library.Addresses

/-! The guard on webhook targets: which addresses are public, how a target is resolved and checked before an
attempt, and the client the attempt is made with. -/
namespace ToolArtifactRegistry.Api.Guarding

open Library.Addresses

/-! Version 4. -/

def octet (bits : BitVec 32) (i : Nat) : Nat := bits.toNat / 256 ^ (3 - i) % 256

def isPrivate (bits : BitVec 32) : Bool :=
  octet bits 0 == 10 || (octet bits 0 == 172 && decide (16 ≤ octet bits 1 ∧ octet bits 1 ≤ 31)) ||
    (octet bits 0 == 192 && octet bits 1 == 168)

def isLoopback4 (bits : BitVec 32) : Bool := octet bits 0 == 127

def isLinkLocal (bits : BitVec 32) : Bool := octet bits 0 == 169 && octet bits 1 == 254

def isBroadcast (bits : BitVec 32) : Bool := bits == 0xFFFFFFFF#32

def isDocumentation (bits : BitVec 32) : Bool :=
  (octet bits 0 == 192 && octet bits 1 == 0 && octet bits 2 == 2) ||
    (octet bits 0 == 198 && octet bits 1 == 51 && octet bits 2 == 100) ||
    (octet bits 0 == 203 && octet bits 1 == 0 && octet bits 2 == 113)

def isUnspecified4 (bits : BitVec 32) : Bool := bits == 0#32

def isMulticast4 (bits : BitVec 32) : Bool := decide (224 ≤ octet bits 0 ∧ octet bits 0 ≤ 239)

def isPublicIpv4 (bits : BitVec 32) : Bool :=
  !(isPrivate bits || isLoopback4 bits || isLinkLocal bits || isBroadcast bits || isDocumentation bits ||
    isUnspecified4 bits || isMulticast4 bits ||
    -- carrier-grade NAT, protocol assignments, benchmarking and what is reserved
    (octet bits 0 == 100 && decide (64 ≤ octet bits 1 ∧ octet bits 1 < 128)) ||
    (octet bits 0 == 192 && octet bits 1 == 0 && octet bits 2 == 0) ||
    (octet bits 0 == 198 && (octet bits 1 == 18 || octet bits 1 == 19)) ||
    decide (240 ≤ octet bits 0))

/-! Version 6. -/

def segment (bits : BitVec 128) (i : Nat) : BitVec 16 := bits.extractLsb' (16 * (7 - i)) 16

def isLoopback6 (bits : BitVec 128) : Bool := bits == 1#128

def isUnspecified6 (bits : BitVec 128) : Bool := bits == 0#128

def isMulticast6 (bits : BitVec 128) : Bool := (segment bits 0 &&& 0xff00#16) == 0xff00#16

/-- The version 4 address a mapped one embeds. -/
def toIpv4Mapped (bits : BitVec 128) : Option (BitVec 32) :=
  if bits.extractLsb' 32 96 = 0xFFFF#96 then some (bits.extractLsb' 0 32) else none

def isPublicIp : IpAddr → Bool
  | .v4 bits => isPublicIpv4 bits
  | .v6 bits =>
    !(isLoopback6 bits || isUnspecified6 bits || isMulticast6 bits ||
      -- unique local, link local, and the address a mapped one embeds
      (segment bits 0 &&& 0xfe00#16) == 0xfc00#16 || (segment bits 0 &&& 0xffc0#16) == 0xfe80#16 ||
      ((toIpv4Mapped bits).map (fun mapped => !isPublicIpv4 mapped)).getD false)

example : isPublicIp (.v4 0x0A000002) = false := by decide
example : isPublicIp (.v6 0xFFFF7F000001) = false := by decide

/-! A delivery. -/

/-- A text without the brackets around it. -/
def trimBrackets (text : String) : String :=
  let bracket (c : Char) : Bool := c == '[' || c == ']'
  Library.Text.trimEndMatches (Library.Text.trimStartMatches text bracket) bracket

/-- A host, which a URL spells as a name without brackets or as an address. -/
inductive Host where
  | domain (name : String) (plain : trimBrackets name = name)
  | address (ip : IpAddr)

structure Url where
  host : Option Host
  /-- The port, or the one that goes with the scheme. -/
  port : Option Nat

structure SocketAddr where
  ip : IpAddr
  port : Nat
  deriving DecidableEq

/-- What the code relies on outside: how addresses are displayed, names looked up, clients built and
connections made. -/
structure Network where
  display : IpAddr → String
  lookupHost : String → Nat → Except String (List SocketAddr)
  Client : Type
  shared : Client
  /-- A client that resolves this name to these addresses. -/
  resolveToAddrs : String → List SocketAddr → Except String Client
  /-- The addresses a client may connect to for a URL. -/
  connects : Client → Url → List SocketAddr

structure WebhookSettings where
  allowPrivateTargets : Bool := false

section Delivering

variable (network : Network)

def hostStr (url : Url) : Option String :=
  url.host.map (fun host =>
    match host with
    | .domain name _ => name
    | .address (.v4 bits) => network.display (.v4 bits)
    | .address (.v6 bits) => "[" ++ network.display (.v6 bits) ++ "]")

/-- The addresses an attempt may connect to; none when the guard is off. -/
def resolvePublicTargets (settings : WebhookSettings) (url : Url) : Except String (List SocketAddr) :=
  if settings.allowPrivateTargets then .ok []
  else
    match hostStr network url with
    | none => .error "webhook URL has no host"
    | some host =>
      match network.lookupHost (trimBrackets host) (url.port.getD 443) with
      | .error e => .error ("could not resolve " ++ host ++ ": " ++ e)
      | .ok addrs =>
        match addrs.find? (fun a => !isPublicIp a.ip) with
        | some a =>
          .error (host ++ " resolves to " ++ network.display a.ip ++ ", which is not a public address; refusing to connect")
        | none => if addrs.isEmpty then .error (host ++ " resolved to no addresses") else .ok addrs

/-- A client for these addresses; an address that is spelled out is connected to as it is. -/
def pinnedClient (url : Url) (pinned : List SocketAddr) : Except String network.Client :=
  if pinned.isEmpty then .ok network.shared
  else
    match hostStr network url with
    | none => .error "webhook URL has no host"
    | some host =>
      match url.host with
      | some (.address _) => .ok network.shared
      | _ =>
        match network.resolveToAddrs (trimBrackets host) pinned with
        | .error e => .error ("could not build a pinned HTTP client for " ++ host ++ ": " ++ e)
        | .ok client => .ok client

/-- Where the bytes of an attempt may go. -/
def postWebhook (settings : WebhookSettings) (url : Url) : Except String (List SocketAddr) := do
  let pinned ← resolvePublicTargets network settings url
  let client ← pinnedClient network url pinned
  return network.connects client url

end Delivering

end ToolArtifactRegistry.Api.Guarding
