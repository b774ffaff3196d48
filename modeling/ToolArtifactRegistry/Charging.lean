import ToolArtifactRegistry.Api.Search
import ToolArtifactRegistry.Auth.Authenticate
import ToolArtifactRegistry.ClientAddress
import ToolArtifactRegistry.Library.Forms
import ToolArtifactRegistry.Mcp.Transport

/-! Rate limits: what a request costs, whom it is charged to, and what is left in the bucket. -/
namespace ToolArtifactRegistry.RateLimit

open Library.Text Library.Addresses Auth

/-- What a request costs, which decides which bucket it is charged to. -/
inductive Class where
  | read
  | write
  | sparql
  | federated
  | mcp
  | outbound
  deriving DecidableEq, Repr

def Class.name : Class → String
  | .read => "read"
  | .write => "write"
  | .sparql => "sparql"
  | .federated => "federated"
  | .mcp => "mcp"
  | .outbound => "outbound"

section

variable (lossy : List UInt8 → String)

/-- A search that starts a fan-out, or is one leg of somebody else's. -/
def isFederated (query : Option String) : Bool :=
  (Library.Forms.parse lossy (Library.Percent.bytesOf (query.getD ""))).any
    (fun pair => (pair.1 == "federated" && pair.2 == "true") || pair.1 == "fed_id")

/-- A request about one software that reaches out to another host. -/
def isOutbound (path : String) : Bool :=
  match (stripPrefix path "/api/v1/software/").bind (fun rest => splitOnce rest '/') with
  | some (id, action) => id != "" && (action == "api-doc" || action == "sync")
  | none => false

def identifyPath : String := "/api/v1/artifacts/identify"
def endpointPath : String := "/mcp"

/-- The class of a request; probes and the assets of the page are never limited. -/
def classify (method path : String) (query : Option String) : Option Class :=
  if path = "/healthz" ∨ path = "/readyz" ∨ path = "/metrics" ∨ startsWith path "/assets/" = true then none
  else if path = "/sparql" then some .sparql
  else if path = endpointPath then some .mcp
  else if path = "/api/v1/search" ∧ isFederated lossy query = true then some .federated
  else if isOutbound path then some .outbound
  else if method = "GET" ∨ method = "HEAD" ∨ method = "OPTIONS" ∨ path = identifyPath then some .read
  else some .write

end

def parseU32 (text : String) : Option Nat := (parseU64 text).filter (fun n => decide (n < 2 ^ 32))

def parseBool (text : String) : Option Bool :=
  if text = "true" then some true else if text = "false" then some false else none

/-- A field of a type that is written as a text. -/
def typed {α : Type} (read : String → Option α) (pairs : List (String × String)) (key : String) : Except String (Option α) :=
  match Library.Forms.field pairs key with
  | .error message => .error message
  | .ok none => .ok none
  | .ok (some text) =>
    match read text with
    | some value => .ok (some value)
    | none => .error (key ++ ": invalid value " ++ text)

/-- The query of a search as its extractor decodes it. -/
def searchQuery (lossy : List UInt8 → String) (query : Option String) : Except String Api.Search.SearchQuery := do
  let pairs := Library.Forms.parse lossy (Library.Percent.bytesOf (query.getD ""))
  let q ← Library.Forms.field pairs "q"
  let entityType ← Library.Forms.field pairs "type"
  let federated ← typed parseBool pairs "federated"
  let limit ← typed parseU64 pairs "limit"
  let fedId ← Library.Forms.field pairs "fed_id"
  let fedHops ← typed parseU32 pairs "fed_hops"
  let fedOrigin ← Library.Forms.field pairs "fed_origin"
  let fedPath ← Library.Forms.field pairs "fed_path"
  let fedBudgetMs ← typed parseU64 pairs "fed_budget_ms"
  return { q, entityType, federated := federated.getD false, limit, fedId, fedHops, fedOrigin, fedPath, fedBudgetMs }

/-- A sustained rate per minute, and how many requests may arrive at once above it. -/
structure Limit where
  perMinute : Nat
  burst : Nat
  positive : 0 < perMinute ∧ 0 < burst

def Limit.display (limit : Limit) : String := toString limit.perMinute ++ "/min, burst " ++ toString limit.burst

/-- The two sides of one class; a side without a limit is not limited. -/
structure ClassLimits where
  anon : Option Limit
  authed : Option Limit

structure RateLimitConfig where
  enabled : Bool
  trustedProxies : List Cidr
  authFail : Option Limit
  limits : Class → ClassLimits

theorem positive (perMinute burst : Nat) : 0 < perMinute + 1 ∧ 0 < burst + 1 := ⟨Nat.succ_pos _, Nat.succ_pos _⟩

def bothSides (anon authed : Limit) : ClassLimits := ⟨some anon, some authed⟩

/-- Generous enough that normal use never meets them. -/
def RateLimitConfig.default : RateLimitConfig where
  enabled := true
  trustedProxies := []
  authFail := some ⟨20, 10, positive 19 9⟩
  limits
    | .read => bothSides ⟨300, 60, positive 299 59⟩ ⟨1200, 200, positive 1199 199⟩
    | .write => bothSides ⟨60, 20, positive 59 19⟩ ⟨300, 60, positive 299 59⟩
    | .sparql => bothSides ⟨30, 10, positive 29 9⟩ ⟨120, 30, positive 119 29⟩
    | .federated => bothSides ⟨10, 5, positive 9 4⟩ ⟨60, 10, positive 59 9⟩
    | .mcp => bothSides ⟨120, 30, positive 119 29⟩ ⟨600, 100, positive 599 99⟩
    | .outbound => bothSides ⟨10, 5, positive 9 4⟩ ⟨60, 10, positive 59 9⟩

/-- Who a request is charged to. -/
inductive Key where
  | ip (address : IpAddr)
  | principal (name : String)
  deriving DecidableEq

/-- Admins are never limited. -/
def isExempt (p : Principal) : Bool := p.isAdmin

/-- The same subject at two issuers is two callers. -/
def principalKey (p : Principal) : String := p.issuer.getD "" ++ "|" ++ p.subject

/-- The rate limiter of the library: one key's state, and what charging it answers. -/
structure Governor (σ : Type) where
  fresh : σ
  /-- What is left of the burst, or how long to wait. -/
  check : Limit → Nat → σ → (Nat ⊕ Nat) × σ

inductive Decision where
  | exempt
  | allowed (limit : Limit) (remaining : Nat)
  | limited (limit : Limit) (retryAfter : Nat) (detail : String)

/-- The live limiters: the buckets of each side by class and key, and the addresses refused authentication. -/
structure RateLimits (σ : Type) where
  anon : Class → Key → σ
  authed : Class → Key → σ
  authFail : Key → σ
  authBlocked : IpAddr → Option Nat
  rejections : Class → Nat
  authFailRejections : Nat

section

variable {σ : Type} (governor : Governor σ) (config : RateLimitConfig)

def RateLimits.new : RateLimits σ where
  anon _ _ := governor.fresh
  authed _ _ := governor.fresh
  authFail _ := governor.fresh
  authBlocked _ := none
  rejections _ := 0
  authFailRejections := 0

def charge (buckets : Class → Key → σ) (cls : Class) (key : Key) (after : σ) : Class → Key → σ :=
  fun other k => if other = cls ∧ k = key then after else buckets other k

/-- Charge one request to a key, on one side of its class. -/
def check (now : Nat) (limits : RateLimits σ) (cls : Class) (key : Key) (authenticated : Bool) : Decision × RateLimits σ :=
  let side := if authenticated then (config.limits cls).authed else (config.limits cls).anon
  let who := if authenticated then "authenticated clients" else "anonymous clients"
  match side with
  | none => (.exempt, limits)
  | some limit =>
    let (verdict, after) := governor.check limit now (if authenticated then limits.authed cls key else limits.anon cls key)
    let charged := if authenticated then { limits with authed := charge limits.authed cls key after }
      else { limits with anon := charge limits.anon cls key after }
    match verdict with
    | .inl remaining => (.allowed limit remaining, charged)
    | .inr wait => (.limited limit wait (cls.name ++ " limit for " ++ who ++ ": " ++ limit.display),
        { charged with rejections := fun other => if other = cls then charged.rejections other + 1 else charged.rejections other })

/-- How much longer an address is refused authentication, if it is. -/
def blockedFor (now : Nat) (limits : RateLimits σ) (ip : IpAddr) : Option Nat :=
  ((limits.authBlocked (bucket ip)).map (fun until_ => until_ - now)).filter (fun wait => wait != 0)

/-- Spend one failed attempt of an address; past its burst it is refused until the next would be allowed. -/
def noteAuthFailure (now : Nat) (limits : RateLimits σ) (ip : IpAddr) : RateLimits σ :=
  match config.authFail with
  | none => limits
  | some limit =>
    let key := Key.ip (bucket ip)
    let (verdict, after) := governor.check limit now (limits.authFail key)
    let spent := { limits with authFail := fun k => if k = key then after else limits.authFail k }
    match verdict with
    | .inl _ => spent
    | .inr wait => { spent with authBlocked := fun a => if a = bucket ip then some (now + wait) else limits.authBlocked a }

/-- Where a connection comes from, and what its request carries. -/
structure Caller where
  peer : IpAddr
  forwarded : List String
  headers : Mcp.Headers

/-- The bearer credential of a request, if there is one. -/
def bearer (headers : Mcp.Headers) : Option String := (Mcp.headerStr headers "authorization").bind Mcp.bearerToken

/-- Who is calling, resolved once per request. -/
structure ClientContext where
  ip : IpAddr
  principal : AppResult Principal

/-- A request that arrived over HTTP, or one that a tool call dispatches in the same process with its caller's context. -/
inductive Origin where
  | outside (caller : Caller)
  | inside (context : ClientContext)

structure Incoming where
  origin : Origin
  method : String
  path : String
  query : Option String

/-- What the middleware does with a request. -/
inductive Passage where
  /-- Refused at the door: too many failed credentials. -/
  | barred (wait : Nat) (limit : Limit)
  /-- Handled without a charge. -/
  | free
  | decided (cls : Class) (decision : Decision)

def clientOf (caller : Caller) : IpAddr :=
  clientIp caller.peer (forwardedFor caller.forwarded) config.trustedProxies

/-- The context of a caller: its address, and what its credential authenticates as. -/
def contextOf (authenticate : String → AppResult Principal) (caller : Caller) : ClientContext where
  ip := clientOf config caller
  principal := match bearer caller.headers with
    | none => .ok Principal.anonymous
    | some raw => authenticate raw

/-- Only a refused credential counts, not the store being down. -/
def countsAsFailure : AppResult Principal → Bool
  | .error error => error.status == 401
  | .ok _ => false

/-- The wait at the door, for a caller that presents a credential. -/
def barredFor (now : Nat) (limits : RateLimits σ) (caller : Caller) : Option (Nat × Limit) :=
  if config.enabled = true ∧ (bearer caller.headers).isSome = true then
    match blockedFor now limits (clientOf config caller), config.authFail with
    | some wait, some limit => some (wait, limit)
    | _, _ => none
  else none

/-- The context of a request, what resolving it leaves, and the refusal at the door. -/
def resolve (authenticate : String → AppResult Principal) (now : Nat) (limits : RateLimits σ) :
    Origin → Except (Nat × Limit) ClientContext × RateLimits σ
  | .inside context => (.ok context, limits)
  | .outside caller =>
    match barredFor config now limits caller with
    | some refusal => (.error refusal, { limits with authFailRejections := limits.authFailRejections + 1 })
    | none =>
      let context := contextOf config authenticate caller
      (.ok context, if config.enabled = true ∧ (bearer caller.headers).isSome = true ∧ countsAsFailure context.principal = true
        then noteAuthFailure governor config now limits context.ip else limits)

/-- The key of a context and its side; admins have none. -/
def keyOf (context : ClientContext) : Option (Key × Bool) :=
  match context.principal with
  | .ok p =>
    if isExempt p then none
    else if !p.isAnonymous then some (.principal (principalKey p), true)
    else some (.ip (bucket context.ip), false)
  | .error _ => some (.ip (bucket context.ip), false)

def middleware (lossy : List UInt8 → String) (authenticate : String → AppResult Principal) (now : Nat)
    (limits : RateLimits σ) (req : Incoming) : Passage × RateLimits σ :=
  match resolve governor config authenticate now limits req.origin with
  | (.error (wait, limit), after) => (.barred wait limit, after)
  | (.ok context, after) =>
    if config.enabled = false then (.free, after)
    else match classify lossy req.method req.path req.query with
      | none => (.free, after)
      | some cls =>
        match keyOf context with
        | none => (.free, after)
        | some (key, authenticated) =>
          let (decision, charged) := check governor config now after cls key authenticated
          (.decided cls decision, charged)

end

end ToolArtifactRegistry.RateLimit
