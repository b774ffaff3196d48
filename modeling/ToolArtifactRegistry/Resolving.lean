import Mathlib.Data.List.Sort
import ToolArtifactRegistry.Library.Tables
import ToolArtifactRegistry.Library.Text

/-! The queue of foreign IRIs to dereference: what is put into it, what of it is due, and how a success or a failure
schedules the next attempt. Times are texts, as the table has them. -/
namespace ToolArtifactRegistry.Resolving

open Library.Tables Library.Text

inductive Status where
  | pending
  | resolved
  | failed
  deriving DecidableEq

structure Entry where
  iri : String
  peerId : Option String
  status : Status
  attempts : Nat
  lastAttemptAt : Option String
  nextAttemptAt : Option String
  resolvedAt : Option String
  lastError : Option String
  deriving DecidableEq

def isTracked (queue : List Entry) (iri : String) : Bool := queue.any (fun entry => entry.iri == iri)

def pendingEntry (now iri : String) (peerId : Option String) : Entry where
  iri := iri
  peerId := peerId
  status := .pending
  attempts := 0
  lastAttemptAt := none
  nextAttemptAt := some now
  resolvedAt := none
  lastError := none

/-- `ON CONFLICT(iri) DO NOTHING`. -/
def queueResolve (now iri : String) (peerId : Option String) (queue : List Entry) : List Entry :=
  if isTracked queue iri then queue else queue ++ [pendingEntry now iri peerId]

def isDue (now : String) (entry : Entry) : Bool := entry.nextAttemptAt.all (fun next => le next now)

/-- `NULL` before every time. -/
def dueBefore (left right : Entry) : Bool :=
  match left.nextAttemptAt, right.nextAttemptAt with
  | none, _ => true
  | some _, none => false
  | some first, some second => le first second

/-- The IRIs to dereference now, resolved ones too; those of one time stay in the order of the table. -/
def dueResolves (now : String) (limit : Nat) (queue : List Entry) : List String :=
  (((queue.filter (isDue now)).insertionSort (fun left right => dueBefore left right = true)).take limit).map Entry.iri

def success (now next : String) (entry : Entry) : Entry :=
  { entry with status := .resolved, attempts := 0, resolvedAt := some now, lastAttemptAt := some now,
               nextAttemptAt := some next, lastError := none }

/-- `next` is the time at which the stub has lived for its TTL. -/
def markResolved (now next iri : String) (queue : List Entry) : List Entry :=
  updateWhere (fun entry => entry.iri == iri) (success now next) queue

/-- The seconds to wait after so many failed attempts. -/
def backoffSecs (attempts : Nat) : Nat := 60 * 2 ^ min attempts 10

/-- The attempts on an IRI, the one that has just failed among them. -/
def attemptsOn (queue : List Entry) (iri : String) : Nat :=
  ((queue.find? (fun entry => entry.iri == iri)).map Entry.attempts).getD 0 + 1

def failure (attempts : Nat) (now next error : String) (entry : Entry) : Entry :=
  { entry with status := .failed, attempts := attempts, lastAttemptAt := some now, nextAttemptAt := some next,
               lastError := some error }

/-- `later` is the text of the time so many seconds on. -/
def markResolveFailed (now : String) (later : Nat → String) (iri error : String) (queue : List Entry) : List Entry :=
  let attempts := attemptsOn queue iri
  updateWhere (fun entry => entry.iri == iri) (failure attempts now (later (backoffSecs attempts)) error) queue

/-- What came of a fetch. The failures before it were read by a statement of its own, and may be out of date when the next
attempt is scheduled. -/
inductive Fetch where
  /-- The stub is kept until `next`. -/
  | kept (next : String)
  | failed (attempts : Nat) (later : Nat → String) (error : String)
  /-- It could not be written into the graph, and nothing is recorded. -/
  | unwritten

def Fetch.record (now iri : String) (peerId : Option String) (fetch : Fetch) (queue : List Entry) : List Entry :=
  match fetch with
  | .kept next => markResolved now next iri (queueResolve now iri peerId queue)
  | .failed attempts later error =>
    updateWhere (fun entry => entry.iri == iri) (failure attempts now (later (backoffSecs attempts)) error) queue
  | .unwritten => queue

structure Resolver where
  queue : List Entry
  /-- What is left of the batch the loop is working off. -/
  batch : List String

def Resolver.empty : Resolver := ⟨[], []⟩

inductive Event where
  /-- An advertisement cites a foreign IRI. -/
  | cited (now iri : String)
  /-- A request fetches a stub. -/
  | asked (now iri : String) (peerId : Option String) (fetch : Fetch)
  /-- The loop collects its next batch. -/
  | tick (now : String)
  /-- The loop has fetched the first stub of its batch. -/
  | worked (now : String) (peerId : Option String) (fetch : Fetch)

def batchSize : Nat := 10

def step (resolver : Resolver) : Event → Resolver
  | .cited now iri => { resolver with queue := queueResolve now iri none resolver.queue }
  | .asked now iri peerId fetch => { resolver with queue := fetch.record now iri peerId resolver.queue }
  | .tick now => if resolver.batch = [] then { resolver with batch := dueResolves now batchSize resolver.queue } else resolver
  | .worked now peerId fetch =>
    match resolver.batch with
    | [] => resolver
    | iri :: rest => ⟨fetch.record now iri peerId resolver.queue, rest⟩

end ToolArtifactRegistry.Resolving
