import ToolArtifactRegistry.Api.Subscriptions
import ToolArtifactRegistry.Library.Looking

/-! Creating and changing a subscription statement by statement: a change reads the row once, decides, and
then writes each column in an UPDATE of its own. -/
namespace ToolArtifactRegistry.Api.Signing

open Library.Tables Library.Programs Ids Auth Domain ToolArtifactRegistry.Subscriptions Api.Subscriptions

/-- What one UPDATE of a subscription sets. -/
inductive Column where
  | label (value : Option String)
  | filter (value : Filter)
  | webhookUrl (value : Option String)
  | webhookSecret (value : Option String)
  | enabled (value : Bool)
  | reactivated
  | updatedAt (now : String)

def Column.change : Column → Subscription → Subscription
  | .label value, sub => { sub with label := value }
  | .filter value, sub => { sub with filter := value }
  | .webhookUrl value, sub => { sub with webhookUrl := value }
  | .webhookSecret value, sub => { sub with webhookSecret := value }
  | .enabled value, sub => { sub with enabled := value }
  | .reactivated, sub => reactivate sub
  | .updatedAt now, sub => { sub with updatedAt := some now }

inductive Statement where
  | set (column : Column)
  | rearm (now : String)

def Statement.execute (id : String) : Statement → Queue → Queue
  | .set column, queue => queue.updateSubscription id column.change
  | .rearm now, queue => queue.updateDelivery (stuck id) (Subscriptions.rearm now)

/-- The statements of a change, in their order. -/
def statements (now : String) (patch : Patch) : List Statement :=
  (patch.label.map (fun value => Statement.set (.label value))).toList ++
    (patch.filter.map (fun value => Statement.set (.filter value))).toList ++
    (patch.webhookUrl.map (fun value => Statement.set (.webhookUrl value))).toList ++
    (patch.webhookSecret.map (fun value => Statement.set (.webhookSecret value))).toList ++
    (patch.enabled.map (fun value => Statement.set (.enabled value))).toList ++
    (if patch.resume then [.set .reactivated, .rearm now] else []) ++ [.set (.updatedAt now)]

theorem updateSubscription_twice (queue : Queue) (id : String) {first second : Subscription → Subscription}
    (keeps : ∀ sub, (first sub).id = sub.id) :
    (queue.updateSubscription id first).updateSubscription id second =
      queue.updateSubscription id (fun sub => second (first sub)) := by
  unfold Queue.updateSubscription updateWhere
  simp only [List.map_map, Queue.mk.injEq, and_true]
  apply List.map_congr_left
  intro sub _
  by_cases here : sub.id = id <;> simp [here, keeps]

theorem updateSubscription_id (queue : Queue) (id : String) : queue.updateSubscription id (fun sub => sub) = queue := by
  unfold Queue.updateSubscription updateWhere
  simp

theorem Column.change_id (column : Column) (sub : Subscription) : (column.change sub).id = sub.id := by
  cases column <;> rfl

/-- What the columns a change names make of a row, one after the other. -/
def changed (columns : List Column) (sub : Subscription) : Subscription :=
  columns.foldl (fun sub column => column.change sub) sub

/-- UPDATEs of one row come to one UPDATE of all their columns. -/
theorem execute_columns (queue : Queue) (id : String) (columns : List Column) :
    (columns.map Statement.set).foldl (fun queue statement => statement.execute id queue) queue =
      queue.updateSubscription id (changed columns) := by
  induction columns generalizing queue with
  | nil => exact (updateSubscription_id queue id).symm
  | cons column rest ih =>
    rw [List.map_cons, List.foldl_cons, ih]
    exact updateSubscription_twice queue id column.change_id

/-- The columns a change sets before it may resume. -/
def columnsOf (patch : Patch) : List Column :=
  (patch.label.map Column.label).toList ++ (patch.filter.map Column.filter).toList ++
    (patch.webhookUrl.map Column.webhookUrl).toList ++ (patch.webhookSecret.map Column.webhookSecret).toList ++
    (patch.enabled.map Column.enabled).toList

theorem changed_columnsOf (patch : Patch) : changed (columnsOf patch) = patch.change := by
  funext sub
  obtain ⟨label, filter, url, secret, enabled, resume⟩ := patch
  cases label <;> cases filter <;> cases url <;> cases secret <;> cases enabled <;> rfl

theorem statements_eq (now : String) (patch : Patch) : statements now patch = (columnsOf patch).map Statement.set ++
    (if patch.resume then [.set .reactivated, .rearm now] else []) ++ [.set (.updatedAt now)] := by
  have each {α : Type} (value : Option α) (column : α → Column) : (value.map (fun value => Statement.set (column value))).toList =
      (value.map column).toList.map Statement.set := by cases value <;> rfl
  simp only [statements, columnsOf, List.map_append, each]

/-- With nothing between them, the statements come to the change. -/
theorem execute_statements (queue : Queue) (id now : String) (patch : Patch) :
    (statements now patch).foldl (fun queue statement => statement.execute id queue) queue = queue.update id now patch := by
  rw [statements_eq, List.foldl_append, List.foldl_append, execute_columns, changed_columnsOf]
  unfold Queue.update
  cases patch.resume <;> rfl

inductive Call where
  /-- Every read before the insert; the count of the deployment's subscriptions is the one of this table. -/
  | consider (state : State) (draw : Draw) (principal : Principal) (id : String) (input : CreateSubscription)
  | insert (id now : String) (new : NewSubscription)
  | load (draw : Draw) (principal : Principal) (sid : String) (input : PatchSubscription)
  | execute (id : String) (statement : Statement)
  | get (id : String)

def Call.Reply : Call → Type
  | .consider .. => AppResult NewSubscription
  | .insert .. => AppResult Unit
  | .load .. => AppResult (Subscription × Patch × Option String)
  | .execute .. => Unit
  | .get _ => Option Subscription

section

variable (server : Server) (courier : Courier)

def perform : (call : Call) → Queue → call.Reply × Queue
  | .consider state draw principal id input, queue =>
    (createPlan server courier state queue draw principal id input, queue)
  | .insert id now new, queue =>
    match queue.create id now new with
    | .error e => (.error e, queue)
    | .ok after => (.ok (), after)
  | .load draw principal sid input, queue => (patchPlan server courier queue draw principal sid input, queue)
  | .execute id statement, queue => ((), statement.execute id queue)
  | .get id, queue => (queue.find? id, queue)

abbrev table : System where
  State := Queue
  Call := Call
  Reply := Call.Reply
  perform := perform server courier

abbrev Handler := Program (table server courier) (AppResult Shown)

def create (state : State) (draw : Draw) (principal : Principal) (id : String) (input : CreateSubscription) :
    Handler server courier := do
  match ← Program.ask (S := table server courier) (.consider state draw principal id input) with
  | .error e => pure (.error e)
  | .ok new =>
    match ← Program.ask (S := table server courier) (.insert (draw.id []) draw.now new) with
    | .error e => pure (.error e)
    | .ok _ => pure (.ok ⟨fresh (draw.id []) draw.now new, new.webhookSecret⟩)

def executeAll (id : String) : List Statement → Program (table server courier) Unit
  | [] => pure ()
  | statement :: rest => do
    let _ ← Program.ask (S := table server courier) (.execute id statement)
    executeAll id rest

def patch (draw : Draw) (principal : Principal) (sid : String) (input : PatchSubscription) : Handler server courier := do
  match ← Program.ask (S := table server courier) (.load draw principal sid input) with
  | .error e => pure (.error e)
  | .ok (sub, change, secret) => do
    executeAll server courier sub.id (statements draw.now change)
    match ← Program.ask (S := table server courier) (.get sub.id) with
    | none => pure (.error (AppError.notFound "no such subscription"))
    | some updated => pure (.ok ⟨updated, secret⟩)

inductive Request where
  | create (state : State) (draw : Draw) (principal : Principal) (id : String) (input : CreateSubscription)
  | patch (draw : Draw) (principal : Principal) (sid : String) (input : PatchSubscription)

def handle : Request → Handler server courier
  | .create state draw principal id input => create server courier state draw principal id input
  | .patch draw principal sid input => patch server courier draw principal sid input

theorem performed_consider (state : State) (draw : Draw) (principal : Principal) (id : String)
    (input : CreateSubscription) (queue : Queue) :
    (table server courier).perform (.consider state draw principal id input) queue =
      (createPlan server courier state queue draw principal id input, queue) := rfl

theorem performed_insert (id now : String) (new : NewSubscription) (queue : Queue) :
    (table server courier).perform (.insert id now new) queue = match queue.create id now new with
      | .error e => (.error e, queue)
      | .ok after => (.ok (), after) := rfl

theorem performed_load (draw : Draw) (principal : Principal) (sid : String) (input : PatchSubscription) (queue : Queue) :
    (table server courier).perform (.load draw principal sid input) queue =
      (patchPlan server courier queue draw principal sid input, queue) := rfl

theorem performed_get (id : String) (queue : Queue) :
    (table server courier).perform (.get id) queue = (queue.find? id, queue) := rfl

theorem finish_executeAll (id : String) (list : List Statement) (queue : Queue) :
    (executeAll server courier id list).finish queue = ((), list.foldl (fun queue statement => statement.execute id queue) queue) := by
  induction list generalizing queue with
  | nil => rfl
  | cons statement rest ih => exact ih _

/-- A change with nothing between its statements is the change in one step. -/
theorem finish_patch (draw : Draw) (principal : Principal) (sid : String) (input : PatchSubscription) (queue : Queue) :
    (patch server courier draw principal sid input).finish queue =
      ((Subscriptions.patch server courier queue draw principal sid input).response,
        (Subscriptions.patch server courier queue draw principal sid input).queue) := by
  unfold patch Subscriptions.patch
  rw [Program.finish_bind, Program.finish_ask, performed_load]
  cases patchPlan server courier queue draw principal sid input with
  | error e => rfl
  | ok plan =>
    obtain ⟨sub, change, secret⟩ := plan
    simp only []
    rw [Program.finish_bind, finish_executeAll, execute_statements, Program.finish_bind, Program.finish_ask, performed_get]
    cases (queue.update sub.id draw.now change).find? sub.id <;> rfl

theorem finish_create (state : State) (draw : Draw) (principal : Principal) (id : String) (input : CreateSubscription)
    (queue : Queue) : (create server courier state draw principal id input).finish queue =
      ((Subscriptions.create server courier state queue draw principal id input).response,
        (Subscriptions.create server courier state queue draw principal id input).queue) := by
  unfold create Subscriptions.create
  rw [Program.finish_bind, Program.finish_ask, performed_consider]
  cases createPlan server courier state queue draw principal id input with
  | error e => rfl
  | ok new =>
    simp only []
    rw [Program.finish_bind, Program.finish_ask, performed_insert]
    cases queue.create (draw.id []) draw.now new <;> rfl

end

end ToolArtifactRegistry.Api.Signing
