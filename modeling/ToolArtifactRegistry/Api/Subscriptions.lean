import ToolArtifactRegistry.Auth.Authenticate
import ToolArtifactRegistry.Domain.Artifact
import ToolArtifactRegistry.Subscriptions

/-! Subscription endpoints, and the matching an advertisement does once it is committed. -/
namespace ToolArtifactRegistry.Api.Subscriptions

open Library.Rdf Library.Text Library.Serde Ids Model Store Auth Domain ToolArtifactRegistry.Subscriptions

/-- How notifications are sent, and what of it lies outside the source. -/
structure Courier where
  policy : RetryPolicy := {}
  /-- Deliveries attempted in one pass. -/
  batch : Nat := 20
  batchBounds : 1 ≤ batch ∧ batch ≤ 500 := by decide
  /-- The lower case of a text, by Unicode. -/
  lower : String → String
  /-- The clock advanced by some seconds. -/
  later : String → Nat → String
  /-- A webhook address in its normal form, when it parses and points at a public host. -/
  webhookUrl : String → AppResult String
  /-- The JSON of a record. -/
  recordJson : Option Artifact → Json

/-- What a request leaves of the queue and what it answers. -/
structure Reply (α : Type) where
  queue : Queue
  response : AppResult α

structure CreateSubscription where
  label : Option String := none
  filter : Filter := {}
  webhookUrl : Option String := none
  webhookSecret : Option String := none

structure PatchSubscription where
  label : Option String := none
  filter : Option Filter := none
  webhookUrl : Option String := none
  rotateSecret : Option Bool := none
  enabled : Option Bool := none
  resume : Option Bool := none

structure DeliveryQuery where
  cursor : Option String := none
  limit : Option String := none
  ack : Option String := none

/-- A subscription with its secret, which is shown only when it is new. -/
structure Shown where
  subscription : Subscription
  secret : Option String

structure Page where
  items : List Delivery
  cursor : Int
  nextCursor : Int
  remaining : Int
  acknowledged : Option Int

structure Acknowledged where
  cursor : Int
  remaining : Int

/-- A difference of two 64-bit integers, which wraps. -/
def wrap64 (value : Int) : Int := (value + 9223372036854775808) % 18446744073709551616 - 9223372036854775808

/-- The deployment itself, or someone who rules over its record. -/
def mayManage (principal : Principal) (instanceIri : String) : AppResult Unit :=
  if principal.isAdmin || principal.isCurator then .ok ()
  else if principal.instanceIri = some instanceIri then .ok ()
  else .error (AppError.forbidden
    "only the owning deployment, a curator or an admin may manage this deployment's subscriptions")

def loadOwned (queue : Queue) (principal : Principal) (sid : String) : AppResult Subscription :=
  match queue.find? sid with
  | none => .error (AppError.notFound "no such subscription")
  | some sub => do
    mayManage principal sub.instanceIri
    return sub

def requireIri (platform : Platform) (field value : String) : AppResult Unit :=
  if startsWith value "http://" || startsWith value "https://" || startsWith value "urn:" then .ok ()
  else .error (AppError.badRequest (field ++
    " must be a full IRI (a vocabulary term, a registry-local type, or an SPDX licence), got " ++ platform.quoted value))

def requireIris (platform : Platform) (field : String) : List String → AppResult Unit
  | [] => .ok ()
  | value :: rest => do
    requireIri platform field value
    requireIris platform field rest

def requireKnown (known : List String) (refuse : String → AppError) : List String → AppResult Unit
  | [] => .ok ()
  | value :: rest => if value ∈ known then requireKnown known refuse rest else .error (refuse value)

def notBlank (value : String) : Bool := trim value != ""

/-- Bare ids are expanded, and what could never match is refused. -/
def normaliseFilter (platform : Platform) (base : String) (filter : Filter) : AppResult Filter := do
  requireIris platform "conforms_to" filter.conformsTo
  requireIris platform "license" filter.license
  requireKnown availabilities (fun a => AppError.badRequest
    ("unknown availability " ++ platform.quoted a ++ "; known: " ++ join ", " availabilities)) filter.availability
  requireKnown [roleProduced, roleConsumed] (fun r => AppError.badRequest
    ("unknown role " ++ platform.quoted r ++ "; known: produced, consumed")) filter.roles
  return { filter with
    software := filter.software.map (iriFor base .software)
    inst := filter.inst.map (iriFor base .instance_)
    keywords := filter.keywords.filter notBlank
    conformsTo := filter.conformsTo.filter notBlank
    license := filter.license.filter notBlank }

def newSecret (draw : Draw) : String := "whsec_" ++ draw.random []

def given (value : Option String) : Option String := (value.map trim).filter (fun text => text != "")

section Owner

variable (server : Server) (courier : Courier)

def checkedUrl : Option String → AppResult (Option String)
  | none => .ok none
  | some url => (courier.webhookUrl url).map some

/-- What a new subscription is stored as; a secret only means anything beside an address. -/
def createPlan (state : State) (queue : Queue) (draw : Draw) (principal : Principal) (id : String)
    (input : CreateSubscription) : AppResult NewSubscription := do
  let iri := iriFor server.base .instance_ id
  mayManage principal iri
  if !(← exists_ server.platform state.data iri) then .error (AppError.notFound s!"no instance at {iri}")
  if maxPerInstance ≤ queue.countForInstance iri then
    .error (AppError.conflict
      s!"this deployment already has the maximum of {maxPerInstance} subscriptions; delete one first")
  let filter ← normaliseFilter server.platform server.base input.filter
  let url ← checkedUrl courier (given input.webhookUrl)
  return { instanceIri := iri, label := input.label, filter, webhookUrl := url,
           webhookSecret := url.map (fun _ => (given input.webhookSecret).getD (newSecret draw)),
           createdBy := some principal.subject }

def create (state : State) (queue : Queue) (draw : Draw) (principal : Principal) (id : String)
    (input : CreateSubscription) : Reply Shown :=
  match createPlan server courier state queue draw principal id input with
  | .error e => ⟨queue, .error e⟩
  | .ok new =>
    match queue.create (draw.id []) draw.now new with
    | .error e => ⟨queue, .error e⟩
    | .ok after => ⟨after, .ok ⟨fresh (draw.id []) draw.now new, new.webhookSecret⟩⟩

/-- Where the webhook of a subscription goes: an empty address clears it with its secret. -/
structure Webhook where
  url : Option (Option String) := none
  secret : Option (Option String) := none
  present : Bool

def patchedWebhook (sub : Subscription) (input : PatchSubscription) : AppResult Webhook :=
  match input.webhookUrl.map trim with
  | none => .ok { present := sub.webhookUrl.isSome }
  | some "" => .ok { url := some none, secret := some none, present := false }
  | some url => (courier.webhookUrl url).map (fun checked => { url := some (some checked), present := true })

/-- An address without a secret gets one. -/
def patchPlan (queue : Queue) (draw : Draw) (principal : Principal) (sid : String) (input : PatchSubscription) :
    AppResult (Subscription × Patch × Option String) := do
  let sub ← loadOwned queue principal sid
  let filter ← match input.filter with
    | none => .ok none
    | some filter => (normaliseFilter server.platform server.base filter).map some
  let webhook ← patchedWebhook courier sub input
  let patch : Patch :=
    { label := input.label.map some, filter, webhookUrl := webhook.url, webhookSecret := webhook.secret,
      enabled := input.enabled, resume := input.resume.getD false }
  if input.rotateSecret.getD false || (webhook.present && sub.webhookSecret.isNone && webhook.secret.isNone) then
    if !webhook.present then .error (AppError.badRequest "there is no webhook to sign; set webhook_url first")
    return (sub, { patch with webhookSecret := some (some (newSecret draw)) }, some (newSecret draw))
  return (sub, patch, none)

def patch (queue : Queue) (draw : Draw) (principal : Principal) (sid : String) (input : PatchSubscription) :
    Reply Shown :=
  match patchPlan server courier queue draw principal sid input with
  | .error e => ⟨queue, .error e⟩
  | .ok (sub, patch, secret) =>
    let after := queue.update sub.id draw.now patch
    match after.find? sub.id with
    | none => ⟨after, .error (AppError.notFound "no such subscription")⟩
    | some updated => ⟨after, .ok ⟨updated, secret⟩⟩

def delete (queue : Queue) (principal : Principal) (sid : String) : Reply Unit :=
  match loadOwned queue principal sid with
  | .error e => ⟨queue, .error e⟩
  | .ok sub => ⟨queue.delete sub.id, .ok ()⟩

/-- Between one and two hundred, and twenty-five when it is not said. -/
def pageLimit (limit : Option String) : Nat := (min (max ((limit.bind parseI64).getD 25) 1) 200).toNat

/-- The client's cursor, or the one it has acknowledged. -/
def cursorOf (sub : Subscription) (query : DeliveryQuery) : AppResult Int :=
  match query.cursor.filter (fun text => text != "") with
  | none => .ok sub.cursorSeq
  | some text =>
    match parseI64 text with
    | some cursor => .ok cursor
    | none => .error (AppError.badRequest "cursor must be an integer sequence number")

def acks (query : DeliveryQuery) : Bool := decide (query.ack = some "true" ∨ query.ack = some "1")

def pullPlan (queue : Queue) (principal : Principal) (sid : String) (query : DeliveryQuery) :
    AppResult (Subscription × Int) := do
  let sub ← loadOwned queue principal sid
  let cursor ← cursorOf sub query
  return (sub, cursor)

/-- Where a page ends: at its last delivery, or where it began. -/
def pageEnd (items : List Delivery) (cursor : Int) : Int := (items.getLast?.map Delivery.seq).getD cursor

/-- The pull path. The page may be acknowledged as it is read. -/
def deliveries (queue : Queue) (now : String) (principal : Principal) (sid : String) (query : DeliveryQuery) :
    Reply Page :=
  match pullPlan queue principal sid query with
  | .error e => ⟨queue, .error e⟩
  | .ok (sub, cursor) =>
    let items := queue.deliveriesSince sub.id cursor (pageLimit query.limit)
    let next := pageEnd items cursor
    let polled := queue.touchPolled sub.id now
    let after := if acks query then polled.ack sub.id now next else polled
    ⟨after, .ok { items, cursor, nextCursor := next, remaining := max (wrap64 (queue.maxSeq sub.id - next)) 0,
                  acknowledged := if acks query then (after.find? sub.id).map Subscription.cursorSeq else none }⟩

/-- Acknowledge up to a sequence number. -/
def ack (queue : Queue) (now : String) (principal : Principal) (sid : String) (cursor : Int) : Reply Acknowledged :=
  match loadOwned queue principal sid with
  | .error e => ⟨queue, .error e⟩
  | .ok sub =>
    let after := queue.ack sub.id now cursor
    let reached := ((after.find? sub.id).map Subscription.cursorSeq).getD cursor
    ⟨after, .ok ⟨reached, max (wrap64 (after.maxSeq sub.id - reached)) 0⟩⟩

end Owner

section Notify

variable (server : Server) (courier : Courier)

/-- The software of a deployment, as the first row of its lookup says. -/
def softwareOfInstance (data : Dataset) (instanceIri : String) : Option String :=
  if server.platform.validIri instanceIri then
    ((data.matching (fun quad => decide (quad.subject = .named instanceIri ∧
      quad.predicate = Ns.t Ns.tar "instanceOf"))).head?).bind (fun quad => Rdf.Props.namedIri quad.object)
  else none

/-- What the matcher sees of an artifact: what a reader of it would see. -/
def candidate (loaded : Option Artifact) (instanceIri softwareIri : Option String) (artifactIri role : String) :
    Candidate where
  artifactIri := artifactIri
  title := loaded.bind Artifact.title
  description := loaded.bind Artifact.description
  conformsTo := loaded.bind (fun artifact => artifact.conformsTo.map TypeRef.iri)
  license := loaded.bind Artifact.license
  keywords := (loaded.map Artifact.keywords).getD []
  availability := (loaded.map Artifact.availability).getD "metadata-only"
  instanceIri := instanceIri
  softwareIri := softwareIri
  role := role

/-- What became produced or consumed, by whom and in which run. -/
structure Notice where
  instanceIri : Option String
  runIri : Option String
  artifacts : List String
  role : String

def optString : Option String → Json
  | some text => .string text
  | none => .null

def payload (state : State) (notice : Notice) (artifactIri : String) (loaded : Option Artifact) (sub : Subscription) :
    Json :=
  .object [("type", .string "artifact.advertised"), ("subscription", .string sub.id), ("registry", .string server.base),
    ("role", .string notice.role), ("run", optString notice.runIri), ("instance", optString notice.instanceIri),
    ("software", optString (notice.instanceIri.bind (softwareOfInstance server state.data))),
    ("artifact_iri", .string artifactIri), ("artifact", courier.recordJson loaded)]

/-- The candidate an artifact makes in the state its advertisement left. -/
def candidateIn (state : State) (draw : Draw) (notice : Notice) (artifactIri : String) : Candidate :=
  candidate (Artifact.loadArtifact (server.ctx state draw) artifactIri).toOption notice.instanceIri
    (notice.instanceIri.bind (softwareOfInstance server state.data)) artifactIri notice.role

def matchOf (state : State) (draw : Draw) (notice : Notice) (artifactIri : String) (sub : Subscription) :
    Queue.Match where
  subscriptionId := sub.id
  artifactIri := artifactIri
  runIri := notice.runIri
  role := notice.role
  payload := payload server courier state notice artifactIri
    (Artifact.loadArtifact (server.ctx state draw) artifactIri).toOption sub

def interested (state : State) (draw : Draw) (notice : Notice) (artifactIri : String) (sub : Subscription) : Bool :=
  matches_ courier.lower sub.filter sub.instanceIri (candidateIn server state draw notice artifactIri)

/-- One artifact against one subscription. -/
def notifyOne (state : State) (draw : Draw) (gap : Nat) (notice : Notice) (artifactIri : String) (queue : Queue)
    (sub : Subscription) : Queue :=
  if interested server courier state draw notice artifactIri sub then
    queue.enqueue gap (draw.id []) draw.now (matchOf server courier state draw notice artifactIri sub)
  else queue

/-- Every enabled subscription is asked about every artifact, and a match writes a row. -/
def notifyAdvertised (state : State) (queue : Queue) (draw : Draw) (gaps : Nat → Nat → Nat) (notice : Notice) : Queue :=
  notice.artifacts.zipIdx.foldl (fun queue_ artifact =>
    queue.activeSubscriptions.zipIdx.foldl (fun queue_ sub =>
      notifyOne server courier state ((draw.site artifact.2).site sub.2) (gaps artifact.2 sub.2) notice artifact.1
        queue_ sub.1) queue_) queue

end Notify

end ToolArtifactRegistry.Api.Subscriptions
