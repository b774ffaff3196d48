import ToolArtifactRegistry.Library.Addresses

/-! Who a request is charged to: the address it came from, or the one that trusted proxies name. -/
namespace ToolArtifactRegistry.RateLimit

open Library.Text Library.Addresses

/-- A dual-stack listener reports version 4 peers as mapped ones; they are version 4 for every purpose. -/
def canonical : IpAddr → IpAddr
  | .v4 bits => .v4 bits
  | .v6 bits => if bits.extractLsb' 32 96 = 0xFFFF#96 then .v4 (bits.extractLsb' 0 32) else .v6 bits

/-- The leading bits of an address, the others cleared. -/
def mask (ip : IpAddr) (len : Nat) : IpAddr :=
  match ip with
  | .v4 bits => .v4 (bits &&& if len = 0 then 0 else BitVec.allOnes 32 <<< (32 - len))
  | .v6 bits => .v6 (bits &&& if len = 0 then 0 else BitVec.allOnes 128 <<< (128 - len))

theorem width_mask (ip : IpAddr) (len : Nat) : (mask ip len).width = ip.width := by
  cases ip <;> rfl

/-- A block of addresses; a mask is never longer than its address. -/
structure Cidr where
  net : IpAddr
  len : Nat
  bounded : len ≤ net.width

/-- A block with its length, or a bare address meaning exactly that address. -/
def Cidr.parse (text : String) : Option Cidr :=
  let text := trim text
  let (address, length) : String × Option String :=
    match splitOnce text '/' with
    | some (address, length) => (address, some length)
    | none => (text, none)
  match (parseIp (trim address)).map canonical with
  | none => none
  | some net =>
    let len : Option Nat := match length with
      | none => some net.width
      | some length => parseU64 (trim length)
    match len with
    | none => none
    | some len =>
      if bounded : len ≤ net.width then some ⟨mask net len, len, (width_mask net len).symm ▸ bounded⟩ else none

def Cidr.contains (cidr : Cidr) (ip : IpAddr) : Bool :=
  (canonical ip).isIpv4 == cidr.net.isIpv4 && decide (mask (canonical ip) cidr.len = cidr.net)

def isTrusted (trusted : List Cidr) (ip : IpAddr) : Bool := trusted.any (fun cidr => cidr.contains ip)

/-- The entries of a forwarding header, the last first; blank ones are none. -/
def entries (forwardedFor : Option String) : List String :=
  (((split (forwardedFor.getD "") (fun c => c == ',')).reverse).map trim).filter (fun entry => entry != "")

/-- Past the proxies' own addresses to the first hop that is none of them; an entry that is no address stops
the walk at the last hop that vouched. -/
def walk (trusted : List Cidr) (client : IpAddr) : List String → IpAddr
  | [] => client
  | entry :: rest =>
    match parseIp entry with
    | none => client
    | some ip => if isTrusted trusted (canonical ip) then walk trusted (canonical ip) rest else canonical ip

/-- An untrusted peer is the client, whatever it forwards. -/
def clientIp (peer : IpAddr) (forwardedFor : Option String) (trusted : List Cidr) : IpAddr :=
  if isTrusted trusted (canonical peer) then walk trusted (canonical peer) (entries forwardedFor) else canonical peer

/-- The headers of a request, joined: a proxy may add one of its own instead of extending the first. -/
def forwardedFor (headers : List String) : Option String :=
  if headers.isEmpty then none else some (join "," headers)

/-- One host of version 6 usually controls a whole block of 64 bits. -/
def bucket (ip : IpAddr) : IpAddr :=
  match canonical ip with
  | .v4 bits => .v4 bits
  | .v6 bits => mask (.v6 bits) 64

end ToolArtifactRegistry.RateLimit
