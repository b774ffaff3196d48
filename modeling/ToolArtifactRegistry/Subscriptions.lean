import Mathlib.Data.List.Sort
import ToolArtifactRegistry.Library.Tables
import ToolArtifactRegistry.Library.Word
import ToolArtifactRegistry.Platform

/-! Subscriptions: the matching rule, the standing interests of deployments, and the queue of the
matches they are told about. -/
namespace ToolArtifactRegistry.Subscriptions

open Library.Text Library.Serde Library.Tables

def roleProduced : String := "produced"
def roleConsumed : String := "consumed"
def availabilities : List String := ["public", "restricted", "embargoed", "metadata-only"]

/-- What a deployment is interested in: alternatives within a field, all fields together. -/
structure Filter where
  conformsTo : List String := []
  software : List String := []
  inst : List String := []
  keywords : List String := []
  license : List String := []
  availability : List String := []
  q : Option String := none
  roles : List String := []
  excludeOwn : Bool := true

def Filter.effectiveRoles (filter : Filter) : List String :=
  if filter.roles.isEmpty then [roleProduced] else filter.roles

/-- Everything the matcher sees of one advertised artifact. -/
structure Candidate where
  artifactIri : String
  title : Option String
  description : Option String
  conformsTo : Option String
  license : Option String
  keywords : List String
  availability : String
  instanceIri : Option String
  softwareIri : Option String
  role : String

/-- An empty constraint accepts anything; a non-empty one needs a value that is in the list. -/
def anyOf (allowed : List String) (value : Option String) : Bool :=
  allowed.isEmpty || value.any (fun v => decide (v ∈ allowed))

def eqIgnoreAsciiCase (left right : String) : Bool := decide (toAsciiLowercase left = toAsciiLowercase right)

section Matching

-- the lower case of a text, by Unicode
variable (lower : String → String)

def keywordsMatch (wanted held : List String) : Bool :=
  wanted.isEmpty || wanted.any (fun want => held.any (fun have_ => eqIgnoreAsciiCase (trim have_) (trim want)))

def textMatches (q title description : Option String) : Bool :=
  match (q.map trim).filter (fun needle => needle != "") with
  | none => true
  | some needle => contains (lower (title.getD "" ++ " " ++ description.getD "")) (lower needle)

/-- The whole matching rule, with no reading and no writing. -/
def matches_ (filter : Filter) (owner : String) (c : Candidate) : Bool :=
  filter.effectiveRoles.any (fun role => decide (role = c.role)) &&
    !(filter.excludeOwn && decide (c.instanceIri = some owner)) &&
    anyOf filter.conformsTo c.conformsTo && anyOf filter.software c.softwareIri &&
    anyOf filter.inst c.instanceIri && anyOf filter.license c.license &&
    anyOf filter.availability (some c.availability) && keywordsMatch filter.keywords c.keywords &&
    textMatches lower filter.q c.title c.description

end Matching

inductive ChannelState where
  | active
  | suspended
  deriving DecidableEq

structure Subscription where
  id : String
  instanceIri : String
  label : Option String
  filter : Filter
  webhookUrl : Option String
  webhookSecret : Option String
  enabled : Bool
  deliveryState : ChannelState
  consecutiveFailures : Nat
  cursorSeq : Int
  createdAt : String
  createdBy : Option String
  updatedAt : Option String
  lastMatchAt : Option String
  lastSuccessAt : Option String
  lastError : Option String
  lastErrorAt : Option String
  lastPolledAt : Option String

inductive Status where
  | pending
  | delivered
  | failed
  | dead
  deriving DecidableEq

structure Delivery where
  seq : Int
  id : String
  subscriptionId : String
  artifactIri : String
  runIri : Option String
  role : String
  matchedAt : String
  status : Status
  attempts : Nat
  lastAttemptAt : Option String
  nextAttemptAt : Option String
  lastError : Option String
  lastStatus : Option Nat
  deliveredAt : Option String
  /-- The notification, frozen when it matched. -/
  payload : Json

/-- A delivery the worker has picked up, with what it needs to send it. -/
structure DueDelivery where
  seq : Int
  id : String
  subscriptionId : String
  webhookUrl : String
  webhookSecret : Option String
  payload : Json
  attempts : Nat

/-- The environment is clamped into these bounds when the policy is read. -/
structure RetryPolicy where
  maxAttempts : Nat := 8
  suspendAfter : Nat := 12
  baseBackoffSecs : Nat := 30
  maxBackoffSecs : Nat := 21600
  attempts : 1 ≤ maxAttempts ∧ maxAttempts ≤ 20 := by decide
  suspend : 1 ≤ suspendAfter ∧ suspendAfter ≤ 500 := by decide
  base : 1 ≤ baseBackoffSecs ∧ baseBackoffSecs ≤ 3600 := by decide
  ceiling : 1 ≤ maxBackoffSecs ∧ maxBackoffSecs ≤ 604800 := by decide

def clamp (value low high : Nat) : Nat := min (max value low) high

theorem clamp_bounds {value low high : Nat} (order : low ≤ high) :
    low ≤ clamp value low high ∧ clamp value low high ≤ high := by
  unfold clamp
  omega

/-- Each variable of the environment, or its default, clamped; a negative one clamps as nought does. -/
def RetryPolicy.fromEnv (maxAttempts suspendAfter base ceiling : Option Int) : RetryPolicy where
  maxAttempts := clamp (maxAttempts.getD 8).toNat 1 20
  suspendAfter := clamp (suspendAfter.getD 12).toNat 1 500
  baseBackoffSecs := clamp (base.getD 30).toNat 1 3600
  maxBackoffSecs := clamp (ceiling.getD 21600).toNat 1 604800
  attempts := clamp_bounds (by decide)
  suspend := clamp_bounds (by decide)
  base := clamp_bounds (by decide)
  ceiling := clamp_bounds (by decide)

/-- Exponential and capped; the shift stops at twenty, so the product stays far below 64 bits. -/
def RetryPolicy.backoffSecs (policy : RetryPolicy) (attempts : Nat) : Nat :=
  min (policy.baseBackoffSecs * 2 ^ min (max attempts 1 - 1) 20) policy.maxBackoffSecs

structure Queue where
  subscriptions : List Subscription := []
  deliveries : List Delivery := []
  /-- The highest sequence number the table has issued, rows since deleted included. -/
  issued : Int := 0

def maxPerInstance : Nat := 32

structure NewSubscription where
  instanceIri : String
  label : Option String
  filter : Filter
  webhookUrl : Option String
  webhookSecret : Option String
  createdBy : Option String

def fresh (id now : String) (new : NewSubscription) : Subscription where
  id := id
  instanceIri := new.instanceIri
  label := new.label
  filter := new.filter
  webhookUrl := new.webhookUrl
  webhookSecret := new.webhookSecret
  enabled := true
  deliveryState := .active
  consecutiveFailures := 0
  cursorSeq := 0
  createdAt := now
  createdBy := new.createdBy
  updatedAt := some now
  lastMatchAt := none
  lastSuccessAt := none
  lastError := none
  lastErrorAt := none
  lastPolledAt := none

namespace Queue

def find? (queue : Queue) (id : String) : Option Subscription :=
  queue.subscriptions.find? (fun sub => decide (sub.id = id))

/-- The id is the primary key. -/
def create (queue : Queue) (id now : String) (new : NewSubscription) : AppResult Queue :=
  if queue.subscriptions.any (fun sub => decide (sub.id = id)) then
    .error (AppError.internal "ops store: UNIQUE constraint failed")
  else .ok { queue with subscriptions := queue.subscriptions ++ [fresh id now new] }

def countForInstance (queue : Queue) (instanceIri : String) : Nat :=
  (queue.subscriptions.filter (fun sub => decide (sub.instanceIri = instanceIri))).length

def activeSubscriptions (queue : Queue) : List Subscription := queue.subscriptions.filter Subscription.enabled

def updateSubscription (queue : Queue) (id : String) (change : Subscription → Subscription) : Queue :=
  { queue with subscriptions := updateWhere (fun sub => decide (sub.id = id)) change queue.subscriptions }

def updateDelivery (queue : Queue) (hit : Delivery → Bool) (change : Delivery → Delivery) : Queue :=
  { queue with deliveries := updateWhere hit change queue.deliveries }

end Queue

structure Patch where
  label : Option (Option String) := none
  filter : Option Filter := none
  webhookUrl : Option (Option String) := none
  webhookSecret : Option (Option String) := none
  enabled : Option Bool := none
  resume : Bool := false

def Patch.change (patch : Patch) (sub : Subscription) : Subscription :=
  { sub with
    label := patch.label.getD sub.label
    filter := patch.filter.getD sub.filter
    webhookUrl := patch.webhookUrl.getD sub.webhookUrl
    webhookSecret := patch.webhookSecret.getD sub.webhookSecret
    enabled := patch.enabled.getD sub.enabled }

def reactivate (sub : Subscription) : Subscription :=
  { sub with deliveryState := .active, consecutiveFailures := 0, lastError := none, lastErrorAt := none }

def rearm (now : String) (d : Delivery) : Delivery :=
  { d with status := .pending, attempts := 0, nextAttemptAt := some now, lastError := none }

/-- A delivery that died or failed while the endpoint was down. -/
def stuck (id : String) (d : Delivery) : Bool :=
  decide (d.subscriptionId = id ∧ (d.status = .dead ∨ d.status = .failed))

namespace Queue

/-- Resuming re-arms the queue too. -/
def resume (queue : Queue) (id now : String) : Queue :=
  (queue.updateSubscription id reactivate).updateDelivery (stuck id) (rearm now)

def update (queue : Queue) (id now : String) (patch : Patch) : Queue :=
  let changed := queue.updateSubscription id patch.change
  let resumed := if patch.resume then changed.resume id now else changed
  resumed.updateSubscription id (fun sub => { sub with updatedAt := some now })

def delete (queue : Queue) (id : String) : Queue :=
  { queue with
    deliveries := deleteWhere (fun d => decide (d.subscriptionId = id)) queue.deliveries
    subscriptions := deleteWhere (fun sub => decide (sub.id = id)) queue.subscriptions }

/-- The body of a notification names its delivery and the time of the match. -/
def stamped (id now : String) : Json → Json
  | .object entries => .object (setEntry (setEntry entries "delivery" (.string id)) "matched_at" (.string now))
  | other => other

/-- Whether a row with this id, or for this subscription, artifact and role, is already there. -/
def taken (queue : Queue) (id subscriptionId artifactIri role : String) : Bool :=
  queue.deliveries.any (fun d => decide (d.id = id ∨
    (d.subscriptionId = subscriptionId ∧ d.artifactIri = artifactIri ∧ d.role = role)))

/-- A match as it is queued. -/
structure Match where
  subscriptionId : String
  artifactIri : String
  runIri : Option String
  role : String
  payload : Json

def queued (seq : Int) (id now : String) (m : Match) : Delivery where
  seq := seq
  id := id
  subscriptionId := m.subscriptionId
  artifactIri := m.artifactIri
  runIri := m.runIri
  role := m.role
  matchedAt := now
  status := .pending
  attempts := 0
  lastAttemptAt := none
  nextAttemptAt := some now
  lastError := none
  lastStatus := none
  deliveredAt := none
  payload := stamped id now m.payload

/-- `INSERT OR IGNORE`; the subscription must exist, and the table never issues a sequence number
twice, though it may leave gaps. -/
def enqueue (queue : Queue) (gap : Nat) (id now : String) (m : Match) : Queue :=
  if queue.taken id m.subscriptionId m.artifactIri m.role || (queue.find? m.subscriptionId).isNone then queue
  else
    let seq := queue.issued + 1 + gap
    { queue with deliveries := queue.deliveries ++ [queued seq id now m], issued := seq }.updateSubscription
      m.subscriptionId (fun sub => { sub with lastMatchAt := some now })

/-- `NULL` before every time, then by time, then by sequence number. -/
def dueBefore (left right : Delivery × Subscription) : Bool :=
  match left.1.nextAttemptAt, right.1.nextAttemptAt with
  | none, none => decide (left.1.seq ≤ right.1.seq)
  | none, some _ => true
  | some _, none => false
  | some l, some r => if l = r then decide (left.1.seq ≤ right.1.seq) else le l r

def isDue (now : String) (d : Delivery) (sub : Subscription) : Bool :=
  decide (d.status = .pending ∨ d.status = .failed) && (d.nextAttemptAt.all (fun at_ => le at_ now)) &&
    sub.enabled && decide (sub.deliveryState = .active) && sub.webhookUrl.isSome

def dueOf (d : Delivery) (sub : Subscription) : DueDelivery where
  seq := d.seq
  id := d.id
  subscriptionId := d.subscriptionId
  webhookUrl := sub.webhookUrl.getD ""
  webhookSecret := sub.webhookSecret
  payload := d.payload
  attempts := d.attempts

/-- Each delivery beside its subscription. -/
def joined (queue : Queue) : List (Delivery × Subscription) :=
  queue.deliveries.flatMap (fun d =>
    (queue.subscriptions.filter (fun sub => decide (sub.id = d.subscriptionId))).map (fun sub => (d, sub)))

/-- The deliveries the worker should attempt now. -/
def dueDeliveries (queue : Queue) (now : String) (limit : Nat) : List DueDelivery :=
  (((queue.joined.filter (fun row => isDue now row.1 row.2)).insertionSort
    (fun left right => dueBefore left right = true)).take limit).map (fun row => dueOf row.1 row.2)

def success (now : String) (code attempts : Nat) (d : Delivery) : Delivery :=
  { d with status := .delivered, attempts := attempts, lastAttemptAt := some now, deliveredAt := some now,
           lastStatus := some code, lastError := none, nextAttemptAt := none }

def markDelivered (queue : Queue) (id subscriptionId now : String) (code attempts : Nat) : Queue :=
  (queue.updateDelivery (fun d => decide (d.id = id)) (success now code attempts)).updateSubscription subscriptionId
    (fun sub => { sub with consecutiveFailures := 0, lastSuccessAt := some now, lastError := none, lastErrorAt := none })

/-- The attempts on a delivery, as the table has them. -/
def attemptsOf (queue : Queue) (id : String) : Nat :=
  ((queue.deliveries.find? (fun d => decide (d.id = id))).map Delivery.attempts).getD 0

def failure (now error : String) (code : Option Nat) (attempts : Nat) (retry : Option String) (d : Delivery) : Delivery :=
  { d with status := if retry.isSome then .failed else .dead, attempts := attempts, lastAttemptAt := some now,
           nextAttemptAt := retry, lastError := some error, lastStatus := code }

def failedOnce (now error : String) (sub : Subscription) : Subscription :=
  { sub with consecutiveFailures := sub.consecutiveFailures + 1, lastError := some error, lastErrorAt := some now }

/-- Back the delivery off or bury it, and suspend an endpoint that keeps failing. -/
def markFailed (policy : RetryPolicy) (later : String → Nat → String) (queue : Queue)
    (id subscriptionId now error : String) (code : Option Nat) : Queue :=
  let attempts := queue.attemptsOf id + 1
  let retry := if policy.maxAttempts ≤ attempts then none else some (later now (policy.backoffSecs attempts))
  let message := String.ofList (error.toList.take 400)
  let noted := (queue.updateDelivery (fun d => decide (d.id = id)) (failure now message code attempts retry)).updateSubscription
    subscriptionId (failedOnce now message)
  if policy.suspendAfter ≤ ((noted.find? subscriptionId).map Subscription.consecutiveFailures).getD 0 then
    noted.updateSubscription subscriptionId (fun sub => { sub with deliveryState := .suspended })
  else noted

/-- The matches after a cursor, oldest first. -/
def deliveriesSince (queue : Queue) (subscriptionId : String) (cursor : Int) (limit : Nat) : List Delivery :=
  ((queue.deliveries.filter (fun d => decide (d.subscriptionId = subscriptionId ∧ cursor < d.seq))).insertionSort
    (fun left right => left.seq ≤ right.seq)).take limit

def maxSeq (queue : Queue) (subscriptionId : String) : Int :=
  ((queue.deliveries.filter (fun d => decide (d.subscriptionId = subscriptionId))).map Delivery.seq).max?.getD 0

/-- The cursor never goes back. -/
def ack (queue : Queue) (subscriptionId now : String) (cursor : Int) : Queue :=
  queue.updateSubscription subscriptionId
    (fun sub => { sub with cursorSeq := max sub.cursorSeq cursor, updatedAt := some now })

def touchPolled (queue : Queue) (subscriptionId now : String) : Queue :=
  queue.updateSubscription subscriptionId (fun sub => { sub with lastPolledAt := some now })

end Queue

/-! How long a failed delivery waits, as the words of the machine compute it. -/

open Library.Word

namespace RetryPolicy

def baseWord (policy : RetryPolicy) : I64 := I64.ofNat policy.baseBackoffSecs (by have := policy.base; omega)

def maxWord (policy : RetryPolicy) : I64 := I64.ofNat policy.maxBackoffSecs (by have := policy.ceiling; omega)

/-- `attempts` counts the one that just failed. The subtraction and the shift give nothing where they
would panic. -/
def backoffWord (policy : RetryPolicy) (attempts : I64) : Option I64 := do
  let failed ← (attempts.max_ (I64.ofNat 1 (by decide))).checkedSub (I64.ofNat 1 (by decide))
  let shift := (failed.min_ (I64.ofNat 20 (by decide))).asU32
  let factor ← (I64.ofNat 1 (by decide)).checkedShl (min shift 40)
  return (policy.baseWord.saturatingMul factor).min_ policy.maxWord

end RetryPolicy

end ToolArtifactRegistry.Subscriptions
