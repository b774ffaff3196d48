import ToolArtifactRegistry.Api.Subscriptions
import ToolArtifactRegistry.Library.Looking

/-! Creating and deleting subscriptions statement by statement: a creation counts what its deployment has, and
inserts in a statement of its own. -/
namespace ToolArtifactRegistry.Api.Capping

open Library.Programs Ids Auth Domain ToolArtifactRegistry.Subscriptions Api.Subscriptions

inductive Call where
  /-- Every read before the insert; the subscriptions counted are those of this table. -/
  | consider (state : State) (draw : Draw) (principal : Principal) (id : String) (input : CreateSubscription)
  | insert (id now : String) (new : NewSubscription)
  | get (id : String)
  | loadOwned (principal : Principal) (sid : String)
  | delete (id : String)

def Call.Reply : Call → Type
  | .consider .. => AppResult NewSubscription
  | .insert .. => AppResult Unit
  | .get _ => Option Subscription
  | .loadOwned .. => AppResult Subscription
  | .delete _ => Unit

section

variable (server : Server) (courier : Courier)

def perform : (call : Call) → Queue → call.Reply × Queue
  | .consider state draw principal id input, queue =>
    (createPlan server courier state queue draw principal id input, queue)
  | .insert id now new, queue =>
    match queue.create id now new with
    | .error e => (.error e, queue)
    | .ok after => (.ok (), after)
  | .get id, queue => (queue.find? id, queue)
  | .loadOwned principal sid, queue => (loadOwned queue principal sid, queue)
  | .delete id, queue => ((), queue.delete id)

abbrev table : System where
  State := Queue
  Call := Call
  Reply := Call.Reply
  perform := perform server courier

/-- A creation is answered with the row, a deletion with nothing. -/
abbrev Handler := Program (table server courier) (AppResult (Option Shown))

def create (state : State) (draw : Draw) (principal : Principal) (id : String) (input : CreateSubscription) :
    Handler server courier :=
  .call (.consider state draw principal id input) fun planned =>
    match planned with
    | .error e => .done (.error e)
    | .ok new => .call (.insert (draw.id []) draw.now new) fun inserted =>
      match inserted with
      | .error e => .done (.error e)
      | .ok _ => .call (.get (draw.id [])) fun found =>
        match found with
        | none => .done (.error (AppError.internal "subscription vanished immediately after insert"))
        | some sub => .done (.ok (some ⟨sub, new.webhookSecret⟩))

def delete (principal : Principal) (sid : String) : Handler server courier :=
  .call (.loadOwned principal sid) fun loaded =>
    match loaded with
    | .error e => .done (.error e)
    | .ok sub => .call (.delete sub.id) fun _ => .done (.ok none)

inductive Request where
  | create (state : State) (draw : Draw) (principal : Principal) (id : String) (input : CreateSubscription)
  | delete (principal : Principal) (sid : String)

def handle : Request → Handler server courier
  | .create state draw principal id input => create server courier state draw principal id input
  | .delete principal sid => delete server courier principal sid

end

section Alone

variable {server : Server} {courier : Courier} {queue : Queue}

theorem performed_consider (state : State) (draw : Draw) (principal : Principal) (id : String)
    (input : CreateSubscription) : (table server courier).perform (.consider state draw principal id input) queue =
      (createPlan server courier state queue draw principal id input, queue) := rfl

theorem performed_insert (id now : String) (new : NewSubscription) :
    (table server courier).perform (.insert id now new) queue = match queue.create id now new with
      | .error e => (.error e, queue)
      | .ok after => (.ok (), after) := rfl

theorem performed_loadOwned (principal : Principal) (sid : String) :
    (table server courier).perform (.loadOwned principal sid) queue = (loadOwned queue principal sid, queue) := rfl

/-- A row just inserted is the one found under its id. -/
theorem find_created {id now : String} {new : NewSubscription} {after : Queue}
    (created : queue.create id now new = .ok after) : after.find? id = some (fresh id now new) := by
  unfold Queue.create at created
  split at created
  · cases created
  · rename_i free
    obtain rfl := Except.ok.inj created
    have absent : queue.subscriptions.find? (fun sub => decide (sub.id = id)) = none := by
      simpa [List.find?_eq_none] using free
    simp [Queue.find?, List.find?_append, absent, fresh]

/-- Served alone, the statements of a creation do what the endpoint does in one step. -/
theorem finish_create (state : State) (draw : Draw) (principal : Principal) (id : String) (input : CreateSubscription) :
    (create server courier state draw principal id input).finish queue =
      ((Subscriptions.create server courier state queue draw principal id input).response.map some,
        (Subscriptions.create server courier state queue draw principal id input).queue) := by
  unfold create Subscriptions.create
  rw [Program.finish_call, performed_consider]
  cases createPlan server courier state queue draw principal id input with
  | error e => rfl
  | ok new =>
    dsimp only
    rw [Program.finish_call, performed_insert]
    cases created : queue.create (draw.id []) draw.now new with
    | error e => rfl
    | ok after =>
      dsimp only
      have got : (table server courier).perform (.get (draw.id [])) after = (after.find? (draw.id []), after) := rfl
      rw [Program.finish_call, got, find_created created]
      rfl

end Alone

end ToolArtifactRegistry.Api.Capping
