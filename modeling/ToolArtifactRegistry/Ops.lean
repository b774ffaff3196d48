import ToolArtifactRegistry.Domain.Context

/-! Operational state beside the graph: token rows, the idempotency tables and the peer table; and
the server state every request acts on. -/
namespace ToolArtifactRegistry

open Library.Rdf Library.Text Ids Domain

structure TokenRow where
  id : String
  pre : String
  hash : String
  instanceIri : Option String
  softwareIri : Option String
  scopes : String
  label : Option String
  createdBy : Option String
  expiresAt : Option String
  revokedAt : Option String

structure Ops where
  tokens : List TokenRow := []
  runKeys : List ((String × String) × String) := []
  artifactKeys : List (String × String) := []
  advertised : List String := []
  resolveQueue : List String := []
  peers : List PeerRecord := []

inductive TokenSubject where
  | instance_ (iri : String)
  | software (iri : String)

def TokenSubject.instanceIri : TokenSubject → Option String
  | .instance_ iri => some iri
  | .software _ => none

def TokenSubject.softwareIri : TokenSubject → Option String
  | .instance_ _ => none
  | .software iri => some iri

namespace Ops

/-- The value under a key of a table. -/
def lookup {κ : Type} [DecidableEq κ] (table : List (κ × String)) (key : κ) : Option String :=
  (table.find? (fun row => decide (row.1 = key))).map Prod.snd

/-- `INSERT OR IGNORE`: the first value of a key stays. -/
def remember {κ : Type} [DecidableEq κ] (table : List (κ × String)) (key : κ) (value : String) :
    List (κ × String) :=
  if (lookup table key).isSome then table else table ++ [(key, value)]

def runForKey (ops : Ops) (externalKey instanceIri : String) : Option String :=
  lookup ops.runKeys (externalKey, instanceIri)

def rememberRun (ops : Ops) (externalKey instanceIri runIri : String) : Ops :=
  { ops with runKeys := remember ops.runKeys (externalKey, instanceIri) runIri }

def artifactForKey (ops : Ops) (externalKey : String) : Option String := lookup ops.artifactKeys externalKey

def rememberArtifact (ops : Ops) (externalKey artifactIri : String) : Ops :=
  { ops with artifactKeys := remember ops.artifactKeys externalKey artifactIri }

def idemKey (runIri artifactIri role : String) : String := runIri ++ "|" ++ artifactIri ++ "|" ++ role

/-- Whether this run, artifact and role are new, and the table that knows them. -/
def claimAdvertisement (ops : Ops) (runIri artifactIri role : String) : Bool × Ops :=
  let key := idemKey runIri artifactIri role
  if key ∈ ops.advertised then (false, ops) else (true, { ops with advertised := ops.advertised ++ [key] })

def queueResolve (ops : Ops) (iri : String) : Ops :=
  if iri ∈ ops.resolveQueue then ops else { ops with resolveQueue := ops.resolveQueue ++ [iri] }

/-- A peer is one row under its base; what is not refreshed of it stays. -/
def upsertPeer (ops : Ops) (peer : PeerRecord) : Ops :=
  let refresh (row : PeerRecord) : PeerRecord :=
    { row with title := peer.title, lastSeenAt := peer.lastSeenAt, resolveStatus := peer.resolveStatus, stale := peer.stale }
  if ops.peers.any (fun row => decide (row.baseIri = peer.baseIri)) then
    { ops with peers := ops.peers.map (fun row => if row.baseIri = peer.baseIri then refresh row else row) }
  else { ops with peers := peer :: ops.peers }

def plaintext (draw : Draw) : String := "tar_" ++ (draw.site 0).random [] ++ "_" ++ (draw.site 1).random []

/-- The row of a freshly minted token; its prefix is the lookup key. -/
def tokenRow (platform : Platform) (draw : Draw) (subject : TokenSubject) (scopes : List String)
    (label createdBy expiresAt : Option String) : TokenRow where
  id := draw.id []
  pre := (draw.site 0).random []
  hash := platform.hashSecret (plaintext draw)
  instanceIri := subject.instanceIri
  softwareIri := subject.softwareIri
  scopes := join " " scopes
  label := label
  createdBy := createdBy
  expiresAt := expiresAt
  revokedAt := none

/-- The id and the prefix of a token are unique in its table. -/
def addToken (ops : Ops) (row : TokenRow) : AppResult Ops :=
  if ops.tokens.any (fun other => decide (other.id = row.id ∨ other.pre = row.pre)) then
    .error (AppError.internal "ops store: UNIQUE constraint failed")
  else .ok { ops with tokens := ops.tokens ++ [row] }

def revoke (now id : String) (row : TokenRow) : TokenRow :=
  if row.id = id ∧ row.revokedAt.isNone then { row with revokedAt := some now } else row

def revokeToken (ops : Ops) (now id : String) : Ops := { ops with tokens := ops.tokens.map (revoke now id) }

def getToken (ops : Ops) (id : String) : Option TokenRow := ops.tokens.find? (fun row => decide (row.id = id))

def live (platform : Platform) (now : String) (row : TokenRow) : Bool :=
  row.revokedAt.isNone && !(row.expiresAt.any (fun expiry => platform.expired expiry now))

/-- The row of a presented token, when its secret matches and it is neither revoked nor expired. -/
def verifyToken (platform : Platform) (ops : Ops) (now presented : String) : Option TokenRow := do
  let rest ← stripPrefix presented "tar_"
  let (pre, _) ← splitOnce rest '_'
  let row ← ops.tokens.find? (fun row => decide (row.pre = pre))
  if platform.verifySecret presented row.hash && live platform now row then some row else none

theorem verifyToken_mem {platform : Platform} {ops : Ops} {now presented : String} {row : TokenRow}
    (verified : verifyToken platform ops now presented = some row) :
    row ∈ ops.tokens ∧ live platform now row = true := by
  unfold verifyToken at verified
  simp only [bind, Option.bind_eq_some_iff] at verified
  obtain ⟨rest, _, ⟨pre, tail⟩, _, found, inTable, kept⟩ := verified
  split at kept
  · rename_i holds
    cases kept
    simp only [Bool.and_eq_true] at holds
    exact ⟨List.mem_of_find?_eq_some inTable, holds.2⟩
  · cases kept

end Ops

/-- What stays the same while the registry serves. -/
structure Server where
  platform : Platform
  config : Config
  calendar : Calendar
  reference : Dataset

def Server.base (server : Server) : String := server.config.baseIri

structure State where
  data : Dataset
  ops : Ops

/-- Nothing registered yet. -/
def State.empty : State := ⟨Dataset.empty, {}⟩

def Server.ctx (server : Server) (state : State) (draw : Draw) : Ctx where
  platform := server.platform
  config := server.config
  calendar := server.calendar
  data := state.data
  reference := server.reference
  peers := state.ops.peers
  since := draw.since

/-- What a request leaves behind and what it answers; a failed answer may follow a write. -/
structure Outcome (α : Type) where
  state : State
  response : AppResult α

namespace Outcome

def refuse {α : Type} (state : State) (error : AppError) : Outcome α := ⟨state, .error error⟩

/-- Apply a transaction and answer from the state it leaves. -/
def commit {α : Type} (server : Server) (state : State) (tx : Store.GraphTx) (answer : State → AppResult α) :
    Outcome α :=
  match Store.apply server.platform state.data tx with
  | .error e => ⟨state, .error e⟩
  | .ok data => ⟨{ state with data }, answer { state with data }⟩

/-- A plan that fails changes nothing; one that succeeds is committed. -/
def planned {α β : Type} (state : State) (plan : AppResult β) (proceed : β → Outcome α) : Outcome α :=
  match plan with
  | .error e => ⟨state, .error e⟩
  | .ok value => proceed value

def forget {α : Type} (outcome : Outcome α) : Outcome Unit := ⟨outcome.state, outcome.response.map (fun _ => ())⟩

/-- Go on from what a step left, unless it failed. -/
def andThen {α β : Type} (first : Outcome α) (next : State → α → Outcome β) : Outcome β :=
  match first.response with
  | .ok value => next first.state value
  | .error e => ⟨first.state, .error e⟩

theorem andThen_assoc {α β γ : Type} (first : Outcome α) (next : State → α → Outcome β) (last : State → β → Outcome γ) :
    (first.andThen next).andThen last = first.andThen (fun state value => (next state value).andThen last) := by
  unfold andThen
  cases first.response <;> rfl

theorem planned_andThen {α β γ : Type} (state : State) (plan : AppResult β) (proceed : β → Outcome α)
    (next : State → α → Outcome γ) :
    (planned state plan proceed).andThen next = planned state plan (fun value => (proceed value).andThen next) := by
  cases plan <;> rfl

theorem commit_cases {α : Type} (server : Server) (state : State) (tx : Store.GraphTx)
    (answer : State → AppResult α) :
    (commit server state tx answer).state = state ∨
      (commit server state tx answer).state = { state with data := Store.effect state.data tx } := by
  unfold commit
  cases applied : Store.apply server.platform state.data tx with
  | error e => exact Or.inl rfl
  | ok data =>
    right
    rw [Store.apply_ok applied]

/-- A planned transaction leaves the state as it was, or with the effect of the plan. -/
theorem planned_commit_cases {α β : Type} (server : Server) (state : State) (plan : AppResult β)
    (tx : β → Store.GraphTx) (answer : β → State → AppResult α) :
    (planned state plan (fun value => commit server state (tx value) (answer value))).state = state ∨
      ∃ value, plan = .ok value ∧
        (planned state plan (fun value => commit server state (tx value) (answer value))).state =
          { state with data := Store.effect state.data (tx value) } := by
  cases plan with
  | error e => exact Or.inl rfl
  | ok value =>
    rcases commit_cases server state (tx value) (answer value) with same | changed
    · exact Or.inl same
    · exact Or.inr ⟨value, rfl, changed⟩

end Outcome

end ToolArtifactRegistry

/-! Liveness probing for deployments that serve an endpoint. -/
namespace ToolArtifactRegistry.Health

open Library.Rdf Rdf Build Store Domain

structure Verdict where
  health : String
  detail : String

/-- Which URL the probe went to. -/
inductive ProbeTarget where
  | declared
  | endpointRoot
  deriving DecidableEq

/-- A declared health endpoint must answer 2xx; at the endpoint root anything that listens is up. -/
def verdictFor (status : Option Nat) (error : Option String) (target : ProbeTarget) : Verdict :=
  match status, error with
  | some s, _ =>
    if 200 ≤ s ∧ s < 300 then ⟨"up", s!"responded {s}"⟩
    else if target = .declared then
      ⟨"down", s!"health endpoint responded {s}, and a health endpoint must answer 2xx"⟩
    else if 500 ≤ s then ⟨"down", s!"responded {s}"⟩
    else ⟨"up", s!"responded {s} at the endpoint root — listening, but declare a health endpoint to be sure"⟩
  | none, some e => ⟨"down", e⟩
  | none, none => ⟨"unknown", "not probed"⟩

def recorded : List String := ["health", "healthCheckedAt", "healthDetail"]

def verdictStatements (platform : Platform) (now : String) (verdict : Verdict) : List Statement :=
  text Ns.tar "health" verdict.health ++ datetime platform Ns.tar "healthCheckedAt" now ++
    text Ns.tar "healthDetail" verdict.detail

def recordTx (platform : Platform) (now iri : String) (verdict : Verdict) : GraphTx :=
  (recorded.foldl (fun tx localName => GraphTx.replaceProperty tx iri (Ns.tar ++ localName) Ns.gLocal) {}).extend
    (describeLocal iri (verdictStatements platform now verdict))

/-- Record a verdict. The targets of a pass are listed before it starts, so the record may have
changed since. -/
def record (server : Server) (state : State) (now iri : String) (verdict : Verdict) : Outcome Unit :=
  Outcome.commit server state (recordTx server.platform now iri verdict) (fun _ => .ok ())

end ToolArtifactRegistry.Health
