import ToolArtifactRegistry.Cursors
import ToolArtifactRegistry.Delivering
import ToolArtifactRegistry.Dispatch
import ToolArtifactRegistry.Laws.Specimen

/-! The delivery queue over whole runs: one row for each match, numbered in the order they were queued, a
bounded number of attempts, and no attempt on what is delivered or dead until its owner resumes it. -/
namespace ToolArtifactRegistry.Laws

open Library.Runs Library.Tables Subscriptions

section

variable (policy : RetryPolicy) (later : String → Nat → String)

theorem sound_empty : Sound policy {} where
  stored := stored_empty policy
  batch := by simp
  apart := by simp
  waiting := by simp

theorem run_sound {desk : Desk} (sound : Sound policy desk) (events : List Move) :
    Sound policy (run (step policy later) desk events) :=
  run_invariant (step policy later) (Sound policy) sound (fun _ _ sound _ => step_sound sound)
    (meets_of_forall (step policy later) desk events (fun _ _ _ => trivial))

/-- The sequence numbers of rows that were not there before. -/
def newSeqs (before after : Desk) : List Int :=
  (after.queue.deliveries.map Delivery.seq).filter (fun seq => decide (seq ∉ before.queue.deliveries.map Delivery.seq))

/-- The sequence numbers of a run, in the order in which their rows were inserted. -/
def insertions (events : List Move) : List Int :=
  remember (step policy later) (fun seqs desk move => seqs ++ newSeqs desk (step policy later desk move)) [] {} events

variable {policy later}

theorem newSeqs_above {desk : Desk} {move : Move} {seq : Int} (new : seq ∈ newSeqs desk (step policy later desk move)) :
    desk.queue.issued < seq := by
  simp only [newSeqs, List.mem_filter, decide_eq_true_eq] at new
  obtain ⟨held, absent⟩ := new
  obtain ⟨d, mem, rfl⟩ := List.mem_map.1 held
  rcases step_rows policy later desk mem with before | ⟨above, _⟩ | ⟨_, _, old, inTable, _, _, same, _⟩ |
    ⟨_, _, _, _, _, old, inTable, _, rfl⟩
  · exact absurd (List.mem_map.2 ⟨d, before, rfl⟩) absent
  · exact above
  · exact absurd (List.mem_map.2 ⟨old, inTable, same.symm⟩) absent
  · exact absurd (List.mem_map.2 ⟨old, inTable, rfl⟩) absent

/-- The numbers issued so far grow, and none lies ahead of the counter. -/
def Numbered (policy : RetryPolicy) (seqs : List Int) (desk : Desk) : Prop :=
  Sound policy desk ∧ seqs.Pairwise (· < ·) ∧ ∀ seq ∈ seqs, seq ≤ desk.queue.issued

/-- Numbers are issued upwards, rows since deleted included. -/
theorem insertions_increasing (events : List Move) : (insertions policy later events).Pairwise (· < ·) := by
  have kept : Numbered policy (insertions policy later events) (run (step policy later) {} events) := by
    have anyhow : Meets (step policy later) (fun _ _ => True) {} events := meets_of_forall _ _ _ (fun _ _ _ => trivial)
    refine remember_invariant (step policy later) (Numbered policy) ⟨sound_empty policy, by simp, by simp⟩ ?_ anyhow
    rintro seqs desk move ⟨sound, increasing, below⟩ _
    have after := @step_sound _ later _ move sound
    refine ⟨after, List.pairwise_append.2 ⟨increasing, ?_, ?_⟩, ?_⟩
    · exact List.Pairwise.sublist List.filter_sublist after.stored.increasing
    · intro old inOld new inNew
      exact Int.lt_of_le_of_lt (below old inOld) (newSeqs_above inNew)
    · intro seq mem
      rcases List.mem_append.1 mem with old | new
      · exact Int.le_trans (below seq old) (step_issued policy later desk move)
      · obtain ⟨d, held, rfl⟩ := List.mem_map.1 (List.mem_filter.1 new).1
        exact after.stored.issued d held
  exact kept.2.1

/-- The row with this number, if it is still there, stays as it was closed. -/
def Closed (seq : Int) (subscription : String) (status : Status) (desk : Desk) : Prop :=
  seq ≤ desk.queue.issued ∧
    ∀ d ∈ desk.queue.deliveries, d.seq = seq → d.status = status ∧ d.subscriptionId = subscription

/-- A move that resumes a subscription. -/
def Resumes (subscription : String) (move : Move) : Prop :=
  ∃ now patch, move = .update subscription now patch ∧ patch.resume = true

/-- What is delivered stays delivered, and what is dead stays dead until its subscription is resumed. -/
theorem step_closed {desk : Desk} {move : Move} {seq : Int} {subscription : String} {status : Status}
    (sound : Sound policy desk) (closed : Closed seq subscription status desk)
    (final : status = .delivered ∨ (status = .dead ∧ ¬Resumes subscription move)) :
    Closed seq subscription status (step policy later desk move) := by
  refine ⟨Int.le_trans closed.1 (step_issued policy later desk move), fun d mem here => ?_⟩
  have shut (old : Delivery) (held : old ∈ desk.queue.deliveries) (same : old.seq = seq) : ¬Open old := by
    have before := (closed.2 old held same).1
    rcases final with rfl | ⟨rfl, _⟩ <;> simp [Open, before]
  rcases step_rows policy later desk mem with before | ⟨above, _⟩ | ⟨due, popped, old, held, theirs, _, same, _⟩ |
    ⟨id, now, patch, rfl, resumes, old, held, was, rfl⟩
  · exact closed.2 d before here
  · have below := closed.1
    omega
  · have waiting := sound.waiting due (popped ▸ List.mem_cons_self) old held theirs
    exact absurd waiting (shut old held (same.symm.trans here))
  · obtain ⟨dead, theirs⟩ := closed.2 old held here
    have stuck_ := of_decide_eq_true was
    rcases final with rfl | ⟨rfl, unresumed⟩
    · simp [dead] at stuck_
    · exact absurd ⟨now, patch, by rw [← theirs, stuck_.1], resumes⟩ unresumed

theorem run_closed {desk : Desk} {seq : Int} {subscription : String} {status : Status} {events : List Move}
    (sound : Sound policy desk) (closed : Closed seq subscription status desk)
    (final : status = .delivered ∨ (status = .dead ∧ ∀ move ∈ events, ¬Resumes subscription move)) :
    Closed seq subscription status (run (step policy later) desk events) := by
  have meets : Meets (step policy later) (fun _ move => status = .delivered ∨ (status = .dead ∧ ¬Resumes subscription move))
      desk events :=
    meets_of_forall _ _ events (fun move mem _ => final.imp_right (fun dead => ⟨dead.1, dead.2 move mem⟩))
  have both := run_invariant (step policy later) (fun desk => Sound policy desk ∧ Closed seq subscription status desk)
    ⟨sound, closed⟩ (fun _ _ both final => ⟨step_sound both.1, step_closed both.1 both.2 final⟩) meets
  exact both.2

theorem not_due_of_closed {desk : Desk} {seq : Int} {subscription : String} {status : Status}
    (closed : Closed seq subscription status desk) (final : status = .delivered ∨ status = .dead) (now : String)
    (limit : Nat) : ∀ due ∈ desk.queue.dueDeliveries now limit, due.seq ≠ seq := by
  intro due mem same
  obtain ⟨d, held, sub, _, _, isDue, rfl⟩ := mem_dueDeliveries mem
  have shut := (closed.2 d held same).1
  have open_ := open_of_isDue isDue
  rcases final with rfl | rfl <;> simp [Open, shut] at open_

theorem closed_of_mem {desk : Desk} {d : Delivery} (sound : Sound policy desk) (held : d ∈ desk.queue.deliveries) :
    Closed d.seq d.subscriptionId d.status desk := by
  refine ⟨sound.stored.issued d held, fun other mem same => ?_⟩
  rw [sound.stored.increasing.eq mem held same]
  exact ⟨rfl, rfl⟩

end

theorem delivery_queue (policy : RetryPolicy) (later : String → Nat → String) (events further : List Move) :
    Orderly policy (run (step policy later) {} events).queue ∧
      (insertions policy later events).Pairwise (· < ·) ∧
      ∀ d ∈ (run (step policy later) {} events).queue.deliveries,
        (d.status = .delivered → ∀ now limit,
          ∀ due ∈ (run (step policy later) {} (events ++ further)).queue.dueDeliveries now limit, due.seq ≠ d.seq) ∧
        (d.status = .dead → (∀ move ∈ further, ¬Resumes d.subscriptionId move) → ∀ now limit,
          ∀ due ∈ (run (step policy later) {} (events ++ further)).queue.dueDeliveries now limit, due.seq ≠ d.seq) := by
  have sound := run_sound policy later (sound_empty policy) events
  refine ⟨sound.stored.toOrderly, insertions_increasing events, fun d held => ?_⟩
  have closed := closed_of_mem sound held
  rw [run_append]
  constructor
  · intro delivered now limit
    rw [delivered] at closed
    exact not_due_of_closed (run_closed sound closed (Or.inl rfl)) (Or.inl rfl) now limit
  · intro dead unresumed now limit
    rw [dead] at closed
    exact not_due_of_closed (run_closed sound closed (Or.inr ⟨rfl, unresumed⟩)) (Or.inr rfl) now limit

end ToolArtifactRegistry.Laws

/-! Acknowledging skips no match exactly as long as no client acknowledges ahead of the numbers issued: the
cursor is a number the client chooses, and it only ever grows. -/
namespace ToolArtifactRegistry.Laws

open Library.Runs Library.Tables Ids Auth ToolArtifactRegistry.Subscriptions
open Api.Subscriptions (DeliveryQuery Page pageLimit pageEnd acks cursorOf loadOwned mayManage pullPlan Courier)
open Dispatch (Site Event moves pullMoves ackMoves)

section Pages

variable {policy : RetryPolicy}

/-- The backlog of a subscription. -/
def unacked (queue : Queue) (sub : Subscription) : List Delivery :=
  queue.deliveries.filter (fun d => decide (d.subscriptionId = sub.id ∧ sub.cursorSeq < d.seq))

theorem unacked_increasing {queue : Queue} (stored : Stored policy queue) (sub : Subscription) :
    Increasing Delivery.seq (unacked queue sub) :=
  List.Pairwise.sublist (List.filter_sublist.map Delivery.seq) stored.increasing

/-- The queue holds its rows in order, so a page is the front of what follows its cursor. -/
theorem deliveriesSince_eq {queue : Queue} (stored : Stored policy queue) (id : String) (cursor : Int) (limit : Nat) :
    queue.deliveriesSince id cursor limit =
      (queue.deliveries.filter (fun d => decide (d.subscriptionId = id ∧ cursor < d.seq))).take limit := by
  have sorted : (queue.deliveries.filter (fun d => decide (d.subscriptionId = id ∧ cursor < d.seq))).Pairwise
      (fun left right => left.seq ≤ right.seq) := by
    have increasing := List.pairwise_map.1 stored.increasing
    exact (increasing.sublist List.filter_sublist).imp Int.le_of_lt
  rw [Queue.deliveriesSince, sorted.insertionSort_eq]

/-- A pull that names no cursor. -/
def Default (query : DeliveryQuery) : Prop := query.cursor.filter (fun text => text != "") = none

instance (query : DeliveryQuery) : Decidable (Default query) := inferInstanceAs (Decidable (_ = _))

theorem pageLimit_pos (limit : Option String) : 1 ≤ pageLimit limit := by
  unfold pageLimit
  omega

theorem find_id {queue : Queue} {id : String} {sub : Subscription} (found : queue.find? id = some sub) : sub.id = id := by
  simpa [Queue.find?] using List.find?_some found

/-- The owner's pull at its own cursor reads the front of the backlog, and acknowledging it leaves the rest. -/
theorem pull_default {queue : Queue} (stored : Stored policy queue) {now sid : String} {principal : Principal}
    {query : DeliveryQuery} {sub : Subscription} (found : queue.find? sid = some sub)
    (owner : mayManage principal sub.instanceIri = .ok ()) (default_ : Default query) :
    ∃ after page, Api.Subscriptions.deliveries queue now principal sid query = ⟨after, .ok page⟩ ∧
      page.items = (unacked queue sub).take (pageLimit query.limit) ∧
      (acks query = true → Stored policy after ∧ ∃ moved, after.find? sid = some moved ∧
        moved.instanceIri = sub.instanceIri ∧ unacked after moved = (unacked queue sub).drop (pageLimit query.limit)) := by
  have here := find_id found
  have planned : Api.Subscriptions.pullPlan queue principal sid query = .ok (sub, sub.cursorSeq) := by
    unfold Default at default_
    simp [Api.Subscriptions.pullPlan, loadOwned, found, owner, cursorOf, default_, bind, Except.bind, pure, Except.pure]
  unfold Api.Subscriptions.deliveries
  simp only [planned]
  refine ⟨_, _, rfl, deliveriesSince_eq stored _ _ _, fun acking => ?_⟩
  simp only [acking, if_true]
  have polled : Stored policy (queue.touchPolled sub.id now) := stored.updateSubscription (fun _ => rfl)
  refine ⟨polled.updateSubscription (fun _ => rfl), ?_⟩
  let next := pageEnd (queue.deliveriesSince sub.id sub.cursorSeq (pageLimit query.limit)) sub.cursorSeq
  let touched : Subscription := { sub with lastPolledAt := some now }
  let moved : Subscription := { touched with cursorSeq := max touched.cursorSeq next, updatedAt := some now }
  have reached : ((queue.touchPolled sub.id now).ack sub.id now next).find? sid = some moved := by
    unfold Queue.find? at found ⊢
    simp only [Queue.ack, Queue.touchPolled, Queue.updateSubscription]
    rw [find_updateWhere, find_updateWhere, found]
    · simp [moved, touched, next]
    · exact fun _ => rfl
    · exact fun _ => rfl
  refine ⟨moved, reached, rfl, ?_⟩
  have items : queue.deliveriesSince sub.id sub.cursorSeq (pageLimit query.limit) =
      (unacked queue sub).take (pageLimit query.limit) := deliveriesSince_eq stored _ _ _
  have positive := pageLimit_pos query.limit
  cases last : ((unacked queue sub).take (pageLimit query.limit)).getLast? with
  | none =>
    have empty : unacked queue sub = [] := by
      have none_ := List.getLast?_eq_none_iff.1 last
      rcases List.take_eq_nil_iff.1 none_ with zero | empty
      · omega
      · exact empty
    have stays : next = sub.cursorSeq := by
      simp only [next, pageEnd, items, last, Option.map_none, Option.getD_none]
    have same : unacked ((queue.touchPolled sub.id now).ack sub.id now next) moved = unacked queue sub := by
      simp only [unacked, moved, touched, stays, max_self]
      rfl
    rw [same, empty, List.drop_nil]
  | some row =>
    have reads : next = row.seq := by
      simp only [next, pageEnd, items, last, Option.map_some, Option.getD_some]
    have inBacklog : row ∈ unacked queue sub := List.mem_of_mem_take (List.mem_of_getLast? last)
    have beyond : sub.cursorSeq < row.seq := (of_decide_eq_true (List.mem_filter.1 inBacklog).2).2
    rw [← (unacked_increasing stored sub).filter_after last]
    simp only [unacked, List.filter_filter, moved, touched, reads]
    apply List.filter_congr
    intro d _
    rw [Int.max_eq_right (Int.le_of_lt beyond), ← Bool.decide_and]
    apply decide_eq_decide.2
    constructor
    · rintro ⟨theirs, after⟩
      exact ⟨after, theirs, by omega⟩
    · rintro ⟨after, theirs, _⟩
      exact ⟨theirs, after⟩

end Pages

section Sites

variable (server : Server) (courier : Courier)

/-- The credential may manage the subscription. -/
def Owns (site : Site) (credential : Option String) (now sid : String) : Prop :=
  ∃ principal sub, principalOf server site.state now credential = .ok principal ∧
    loadOwned site.desk.queue principal sid = .ok sub

/-- An owner acknowledges no number beyond those issued. -/
def Modest (site : Site) : Event → Prop
  | .ack credential now sid cursor => Owns server site credential now sid → cursor ≤ site.desk.queue.issued
  | .pull credential now sid query => Owns server site credential now sid → acks query = true →
      ∀ cursor, (query.cursor.filter (fun text => text != "")).bind Library.Text.parseI64 = some cursor →
        cursor ≤ site.desk.queue.issued
  | _ => True

/-- The page a pull of a subscription gets. -/
def pulled (site : Site) (sid : String) : Event → Option (DeliveryQuery × Page)
  | .pull credential now id query =>
    if id = sid then
      match principalOf server site.state now credential with
      | .error _ => none
      | .ok principal =>
        match (Api.Subscriptions.deliveries site.desk.queue now principal sid query).response with
        | .error _ => none
        | .ok page => some (query, page)
    else none
  | _ => none

/-- What pulls of a subscription returned, and how far those that acknowledge at its own cursor reach. -/
structure Readings where
  seen : List Delivery := []
  room : Nat := 0

def readNext (sid : String) (readings : Readings) (site : Site) (event : Event) : Readings :=
  match pulled server site sid event with
  | none => readings
  | some (query, page) =>
    ⟨readings.seen ++ page.items, if Default query ∧ acks query = true then readings.room + pageLimit query.limit
      else readings.room⟩

def readings (sid : String) (site : Site) (events : List Event) : Readings :=
  remember (Dispatch.step server courier) (readNext server sid) {} site events

/-- The backlog of a subscription up to a number. -/
def ahead (queue : Queue) (sid : String) (seq : Int) : Nat :=
  match queue.find? sid with
  | none => 0
  | some sub => ((unacked queue sub).filter (fun d => decide (d.seq ≤ seq))).length

/-- The subscription is not deleted. -/
def Keeps (sid : String) (site : Site) (event : Event) : Prop := Move.delete sid ∉ moves server courier site event

/-- And it is acknowledged only by pulls at its own cursor. -/
def Follows (sid : String) (site : Site) (event : Event) : Prop :=
  Keeps server courier sid site event ∧ ∀ now cursor, Move.acknowledge sid now cursor ∈ moves server courier site event →
    ∃ credential query, event = .pull credential now sid query ∧ Default query

end Sites

section Events

variable {server : Server} {courier : Courier} {site : Site} {event : Event}

theorem loadOwned_ok {queue : Queue} {principal : Principal} {sid : String} {sub : Subscription}
    (loaded : loadOwned queue principal sid = .ok sub) :
    queue.find? sid = some sub ∧ mayManage principal sub.instanceIri = .ok () := by
  unfold loadOwned at loaded
  cases found : queue.find? sid with
  | none => simp [found] at loaded
  | some there =>
    cases owner : mayManage principal there.instanceIri with
    | error e => simp [found, owner, bind, Except.bind] at loaded
    | ok _ =>
      simp only [found, owner, bind, Except.bind, pure, Except.pure, Except.ok.injEq] at loaded
      exact ⟨by rw [loaded], by rw [← loaded, owner]⟩

theorem pullPlan_ok {queue : Queue} {principal : Principal} {sid : String} {query : DeliveryQuery} {sub : Subscription}
    {cursor : Int} (planned : pullPlan queue principal sid query = .ok (sub, cursor)) :
    loadOwned queue principal sid = .ok sub ∧ cursorOf sub query = .ok cursor := by
  unfold pullPlan at planned
  cases loaded : loadOwned queue principal sid with
  | error e => simp [loaded, bind, Except.bind] at planned
  | ok there =>
    cases from_ : cursorOf there query with
    | error e => simp [loaded, from_, bind, Except.bind] at planned
    | ok number =>
      simp only [loaded, from_, bind, Except.bind, pure, Except.pure, Except.ok.injEq, Prod.mk.injEq] at planned
      obtain ⟨rfl, rfl⟩ := planned
      exact ⟨rfl, from_⟩

theorem mem_ownerMoves {credential : Option String} {now : String} {request : Principal → List Move} {move : Move}
    (mem : move ∈ Dispatch.ownerMoves server site credential now request) :
    ∃ principal, principalOf server site.state now credential = .ok principal ∧ move ∈ request principal := by
  unfold Dispatch.ownerMoves at mem
  split at mem
  · simp at mem
  · rename_i principal made
    exact ⟨principal, made, mem⟩

theorem served_matches {credential : Option String} {draw : Draw} {action : Registry.Action} {gaps : Nat → Nat → Nat}
    {move : Move} (mem : move ∈ Dispatch.servedMoves server courier site credential draw action gaps) :
    ∃ gap id now m, move = .enqueue gap id now m := by
  unfold Dispatch.servedMoves at mem
  split at mem
  · simp at mem
  · split at mem
    · simp at mem
    · simp only [Dispatch.noticeMoves, List.mem_flatMap] at mem
      obtain ⟨artifact, _, sub, _, inMatch⟩ := mem
      split at inMatch
      · rw [List.mem_singleton] at inMatch
        exact ⟨_, _, _, _, inMatch⟩
      · simp at inMatch

theorem mem_patchMoves {queue : Queue} {draw : Draw} {principal : Principal} {sid : String}
    {input : Api.Subscriptions.PatchSubscription} {move : Move}
    (mem : move ∈ Dispatch.patchMoves server courier queue draw principal sid input) :
    ∃ id patch, move = .update id draw.now patch := by
  unfold Dispatch.patchMoves at mem
  split at mem
  · simp at mem
  · exact ⟨_, _, List.mem_singleton.1 mem⟩

theorem mem_subscribeMoves {draw : Draw} {principal : Principal} {id : String}
    {input : Api.Subscriptions.CreateSubscription} {move : Move}
    (mem : move ∈ Dispatch.subscribeMoves server courier site draw principal id input) :
    ∃ new, move = .subscribe (draw.id []) draw.now new := by
  unfold Dispatch.subscribeMoves at mem
  split at mem
  · simp at mem
  · exact ⟨_, List.mem_singleton.1 mem⟩

theorem mem_deleteMoves {queue : Queue} {principal : Principal} {sid : String} {move : Move}
    (mem : move ∈ Dispatch.deleteMoves queue principal sid) : ∃ id, move = .delete id := by
  unfold Dispatch.deleteMoves at mem
  split at mem
  · simp at mem
  · exact ⟨_, List.mem_singleton.1 mem⟩

theorem mem_pullMoves {queue : Queue} {now : String} {principal : Principal} {sid : String} {query : DeliveryQuery}
    {move : Move} (mem : move ∈ pullMoves queue now principal sid query) :
    ∃ sub start, pullPlan queue principal sid query = .ok (sub, start) ∧ (move = .poll sub.id now ∨
      (acks query = true ∧ move = .acknowledge sub.id now
        (pageEnd (queue.deliveriesSince sub.id start (pageLimit query.limit)) start))) := by
  unfold Dispatch.pullMoves at mem
  split at mem
  · simp at mem
  · rename_i sub start planned
    refine ⟨sub, start, planned, ?_⟩
    rcases List.mem_cons.1 mem with polled | acknowledged
    · exact Or.inl polled
    · split at acknowledged
      · rename_i acking
        exact Or.inr ⟨acking, List.mem_singleton.1 acknowledged⟩
      · simp at acknowledged

theorem mem_ackMoves {queue : Queue} {now : String} {principal : Principal} {sid : String} {cursor : Int} {move : Move}
    (mem : move ∈ ackMoves queue now principal sid cursor) :
    ∃ sub, loadOwned queue principal sid = .ok sub ∧ move = .acknowledge sub.id now cursor := by
  unfold Dispatch.ackMoves at mem
  split at mem
  · simp at mem
  · rename_i sub loaded
    exact ⟨sub, loaded, List.mem_singleton.1 mem⟩

/-- Only pulls and acknowledgements of an owner acknowledge. -/
theorem acknowledge_mem {id now : String} {cursor : Int}
    (mem : Move.acknowledge id now cursor ∈ moves server courier site event) :
    (∃ credential query principal sub start, event = .pull credential now id query ∧
      principalOf server site.state now credential = .ok principal ∧
      pullPlan site.desk.queue principal id query = .ok (sub, start) ∧ acks query = true ∧
      cursor = pageEnd (site.desk.queue.deliveriesSince id start (pageLimit query.limit)) start) ∨
    (∃ credential, event = .ack credential now id cursor ∧ Owns server site credential now id) := by
  cases event with
  | registry event gaps =>
    cases event with
    | request credential draw action =>
      obtain ⟨_, _, _, _, clash⟩ := served_matches mem
      cases clash
    | health | fetchStub | knowPeer | reindex => simp [moves] at mem
  | subscribe credential draw holder input =>
    obtain ⟨_, _, inRequest⟩ := mem_ownerMoves mem
    obtain ⟨_, clash⟩ := mem_subscribeMoves inRequest
    cases clash
  | patch credential draw sid input =>
    obtain ⟨_, _, inRequest⟩ := mem_ownerMoves mem
    obtain ⟨_, _, clash⟩ := mem_patchMoves inRequest
    cases clash
  | delete credential at_ sid =>
    obtain ⟨_, _, inRequest⟩ := mem_ownerMoves mem
    obtain ⟨_, clash⟩ := mem_deleteMoves inRequest
    cases clash
  | pull credential at_ sid query =>
    obtain ⟨principal, made, inRequest⟩ := mem_ownerMoves mem
    obtain ⟨sub, start, planned, clash | ⟨acking, same⟩⟩ := mem_pullMoves inRequest
    · cases clash
    · have here := find_id (loadOwned_ok (pullPlan_ok planned).1).1
      cases same
      rw [here]
      exact Or.inl ⟨credential, query, principal, sub, start, rfl, made, planned, acking, rfl⟩
  | ack credential at_ sid number =>
    obtain ⟨principal, made, inRequest⟩ := mem_ownerMoves mem
    obtain ⟨sub, loaded, same⟩ := mem_ackMoves inRequest
    have here := find_id (loadOwned_ok loaded).1
    cases same
    rw [here]
    exact Or.inr ⟨credential, rfl, principal, sub, made, loaded⟩
  | collect | attempt | restart => simp [moves] at mem

/-- The moves of an event are matches, or none of them is. -/
theorem moves_matches (event : Event) :
    (∀ move ∈ moves server courier site event, ∃ gap id now m, move = .enqueue gap id now m) ∨
      ∀ move ∈ moves server courier site event, ∀ gap id now m, move ≠ .enqueue gap id now m := by
  cases event with
  | registry event gaps =>
    cases event with
    | request credential draw action => exact Or.inl (fun move mem => served_matches mem)
    | health | fetchStub | knowPeer | reindex => exact Or.inl (by simp [moves])
  | subscribe credential draw holder input =>
    refine Or.inr (fun move mem gap id now m clash => ?_)
    obtain ⟨_, _, inRequest⟩ := mem_ownerMoves mem
    obtain ⟨_, same⟩ := mem_subscribeMoves inRequest
    cases clash.symm.trans same
  | patch credential draw sid input =>
    refine Or.inr (fun move mem gap id now m clash => ?_)
    obtain ⟨_, _, inRequest⟩ := mem_ownerMoves mem
    obtain ⟨_, _, same⟩ := mem_patchMoves inRequest
    cases clash.symm.trans same
  | delete credential at_ sid =>
    refine Or.inr (fun move mem gap id now m clash => ?_)
    obtain ⟨_, _, inRequest⟩ := mem_ownerMoves mem
    obtain ⟨_, same⟩ := mem_deleteMoves inRequest
    cases clash.symm.trans same
  | pull credential at_ sid query =>
    refine Or.inr (fun move mem gap id now m clash => ?_)
    obtain ⟨_, _, inRequest⟩ := mem_ownerMoves mem
    obtain ⟨_, _, _, same | ⟨_, same⟩⟩ := mem_pullMoves inRequest
    · cases clash.symm.trans same
    · cases clash.symm.trans same
  | ack credential at_ sid number =>
    refine Or.inr (fun move mem gap id now m clash => ?_)
    obtain ⟨_, _, inRequest⟩ := mem_ownerMoves mem
    obtain ⟨_, _, same⟩ := mem_ackMoves inRequest
    cases clash.symm.trans same
  | collect | attempt | restart => exact Or.inr (by simp [moves])

theorem run_behind {policy : RetryPolicy} {later : String → Nat → String} {desk : Desk} {requests : List Move}
    {bound : Int} (behind : (ledger desk.queue).Behind) (within : bound ≤ desk.queue.issued)
    (modest : ∀ id now cursor, Move.acknowledge id now cursor ∈ requests → cursor ≤ bound) :
    (ledger (run (Subscriptions.step policy later) desk requests).queue).Behind := by
  have meets : Meets (Subscriptions.step policy later)
      (fun _ move => ∀ id now cursor, move = .acknowledge id now cursor → cursor ≤ bound) desk requests :=
    meets_of_forall _ desk requests (fun move mem _ id now cursor same => modest id now cursor (same ▸ mem))
  have both := run_invariant (Subscriptions.step policy later)
    (fun desk => (ledger desk.queue).Behind ∧ bound ≤ desk.queue.issued) ⟨behind, within⟩
    (fun desk move kept modest => ⟨step_behind kept.1 (fun id now cursor same =>
      Int.le_trans (modest id now cursor same) kept.2), Int.le_trans kept.2 (step_issued policy later desk move)⟩) meets
  exact both.1

/-- A page ends no further than the numbers issued, when it begins no further. -/
theorem pageEnd_issued {queue : Queue} {sid : String} {start : Int} {limit : Nat} (behind : (ledger queue).Behind)
    (within : start ≤ queue.issued) : pageEnd (queue.deliveriesSince sid start limit) start ≤ queue.issued := by
  unfold pageEnd
  cases last : (queue.deliveriesSince sid start limit).getLast? with
  | none => exact within
  | some row =>
    have inPage : row ∈ queue.deliveriesSince sid start limit := List.mem_of_getLast? last
    have inTable : row ∈ queue.deliveries := by
      unfold Queue.deliveriesSince at inPage
      exact (List.mem_filter.1 ((List.perm_insertionSort _ _).mem_iff.1 (List.mem_of_mem_take inPage))).1
    exact behind.slots (slotOf row) (List.mem_map_of_mem inTable)

theorem event_behind (behind : (ledger site.desk.queue).Behind) (modest : Modest server site event) :
    (ledger (Dispatch.step server courier site event).desk.queue).Behind := by
  rw [Dispatch.step_desk]
  refine run_behind behind (Int.le_refl _) (fun id now cursor mem => ?_)
  rcases acknowledge_mem mem with ⟨credential, query, principal, sub, start, rfl, made, planned, acking, rfl⟩ |
    ⟨credential, rfl, owns⟩
  · obtain ⟨loaded, from_⟩ := pullPlan_ok planned
    refine pageEnd_issued behind ?_
    unfold cursorOf at from_
    cases given : query.cursor.filter (fun text => text != "") with
    | none =>
      simp only [given, Except.ok.injEq] at from_
      have held := List.mem_of_find?_eq_some (loadOwned_ok loaded).1
      rw [← from_]
      exact behind.cards (cardOf sub) (List.mem_map_of_mem held)
    | some text =>
      cases parsed : Library.Text.parseI64 text with
      | none => simp [given, parsed] at from_
      | some number =>
        simp only [given, parsed, Except.ok.injEq] at from_
        exact modest ⟨principal, sub, made, loaded⟩ acking start (by rw [given, Option.bind_some, parsed, from_])
  · exact modest owns

theorem sites_behind {server : Server} {courier : Courier} {events : List Event}
    (modest : Meets (Dispatch.step server courier) (Modest server) Site.empty events) :
    (ledger (run (Dispatch.step server courier) Site.empty events).desk.queue).Behind := by
  refine run_invariant (Dispatch.step server courier) (fun site => (ledger site.desk.queue).Behind) ?_
    (fun site event behind modest => event_behind behind modest) modest
  exact ⟨Int.le_refl _, by simp [Site.empty, ledger], by simp [Site.empty, ledger], by simp [Site.empty, ledger]⟩

theorem sites_sound (events : List Event) :
    Sound courier.policy (run (Dispatch.step server courier) Site.empty events).desk :=
  run_invariant (Dispatch.step server courier) (fun site => Sound courier.policy site.desk) (sound_empty courier.policy)
    (fun _ event sound _ => Dispatch.step_sound server courier event sound)
    (meets_of_forall (Dispatch.step server courier) Site.empty events (fun _ _ _ => trivial))

/-- One event never takes an acknowledgement back. -/
theorem event_cursor {sid : String} {card : Card} (found : (ledger site.desk.queue).card? sid = some card)
    (keeps : Keeps server courier sid site event) :
    ∃ after, (ledger (Dispatch.step server courier site event).desk.queue).card? sid = some after ∧
      card.cursor ≤ after.cursor := by
  rw [Dispatch.step_desk]
  have meets : Meets (Subscriptions.step courier.policy courier.later) (fun _ move => move ≠ .delete sid) site.desk
      (moves server courier site event) :=
    meets_of_forall _ _ _ (fun move mem _ same => keeps (same ▸ mem))
  exact run_invariant (Subscriptions.step courier.policy courier.later)
    (fun desk => ∃ after, (ledger desk.queue).card? sid = some after ∧ card.cursor ≤ after.cursor)
    ⟨card, found, Int.le_refl _⟩
    (fun desk move kept open_ => by
      obtain ⟨before, there, reached⟩ := kept
      obtain ⟨after, still, further⟩ := step_card there open_
      exact ⟨after, still, Int.le_trans reached further⟩) meets

theorem sites_cursor {sid : String} {sub : Subscription} {further : List Event}
    (found : site.desk.queue.find? sid = some sub)
    (keeps : Meets (Dispatch.step server courier) (Keeps server courier sid) site further) :
    ∃ after, (run (Dispatch.step server courier) site further).desk.queue.find? sid = some after ∧
      sub.cursorSeq ≤ after.cursorSeq := by
  have start : (ledger site.desk.queue).card? sid = some (cardOf sub) := by rw [card_ledger, found, Option.map_some]
  obtain ⟨card, there, reached⟩ := run_invariant (Dispatch.step server courier)
    (fun site => ∃ after, (ledger site.desk.queue).card? sid = some after ∧ (cardOf sub).cursor ≤ after.cursor)
    ⟨cardOf sub, start, Int.le_refl _⟩
    (fun site event kept open_ => by
      obtain ⟨before, there, reached⟩ := kept
      obtain ⟨after, still, further⟩ := event_cursor there open_
      exact ⟨after, still, Int.le_trans reached further⟩) keeps
  rw [card_ledger] at there
  obtain ⟨after, still, rfl⟩ := Option.map_eq_some_iff.1 there
  exact ⟨after, still, reached⟩

/-- A number an event issues is ahead of what its subscription has acknowledged. -/
theorem inserted_pending {d : Delivery} (behind : (ledger site.desk.queue).Behind) (modest : Modest server site event)
    (held : d ∈ (Dispatch.step server courier site event).desk.queue.deliveries)
    (new : ∀ old ∈ site.desk.queue.deliveries, slotOf old ≠ slotOf d) :
    ∃ card, (ledger (Dispatch.step server courier site event).desk.queue).card? d.subscriptionId = some card ∧
      card.cursor < d.seq := by
  have after := @event_behind _ courier _ _ behind modest
  have slot : slotOf d ∈ (ledger (Dispatch.step server courier site event).desk.queue).slots := List.mem_map_of_mem held
  have absent : slotOf d ∉ (ledger site.desk.queue).slots := by
    intro there
    obtain ⟨old, before, same⟩ := List.mem_map.1 there
    exact new old before same
  obtain ⟨backer, inTable, theirs⟩ := after.backed (slotOf d) slot
  obtain ⟨card, found⟩ : ∃ card,
      (ledger (Dispatch.step server courier site event).desk.queue).card? d.subscriptionId = some card :=
    Option.isSome_iff_exists.1 (List.find?_isSome.2 ⟨backer, inTable, decide_eq_true theirs⟩)
  refine ⟨card, found, ?_⟩
  have cardHeld := List.mem_of_find?_eq_some found
  rw [Dispatch.step_desk] at slot cardHeld
  rcases @moves_matches server courier site event with all | none_
  · have meets : Meets (Subscriptions.step courier.policy courier.later)
        (fun _ move => ∃ gap id now m, move = .enqueue gap id now m) site.desk (moves server courier site event) :=
      meets_of_forall _ _ _ (fun move mem _ => all move mem)
    obtain ⟨cards, _, slots⟩ := run_invariant (Subscriptions.step courier.policy courier.later)
      (fun desk => (ledger desk.queue).cards = (ledger site.desk.queue).cards ∧
        site.desk.queue.issued ≤ desk.queue.issued ∧
        ∀ slot ∈ (ledger desk.queue).slots, slot ∈ (ledger site.desk.queue).slots ∨ site.desk.queue.issued < slot.seq)
      ⟨rfl, Int.le_refl _, fun slot mem => Or.inl mem⟩
      (fun desk move kept isMatch => by
        obtain ⟨gap, id, now, m, rfl⟩ := isMatch
        obtain ⟨cards, grown, slots⟩ := kept
        obtain ⟨cardsAfter, slotsAfter⟩ := step_match cards grown slots
        exact ⟨cardsAfter, Int.le_trans grown (step_issued courier.policy courier.later desk _), slotsAfter⟩) meets
    rcases slots (slotOf d) slot with there | above
    · exact absurd there absent
    · rw [cards] at cardHeld
      exact Int.lt_of_le_of_lt (behind.cards card cardHeld) above
  · have meets : Meets (Subscriptions.step courier.policy courier.later)
        (fun _ move => ∀ gap id now m, move ≠ .enqueue gap id now m) site.desk (moves server courier site event) :=
      meets_of_forall _ _ _ (fun move mem _ => none_ move mem)
    have slots := run_invariant (Subscriptions.step courier.policy courier.later)
      (fun desk => ∀ slot ∈ (ledger desk.queue).slots, slot ∈ (ledger site.desk.queue).slots)
      (fun slot mem => mem) (fun desk move kept other slot mem => kept slot (step_slots other slot mem)) meets
    exact absurd (slots (slotOf d) slot) absent

theorem waiting_length (queue : Queue) (sub : Subscription) (last : Int) :
    ((ledger queue).waiting (cardOf sub) last).length =
      ((unacked queue sub).filter (fun d => decide (d.seq ≤ last))).length := by
  simp only [ledger, Subscriptions.Ledger.waiting, unacked, List.filter_map, List.length_map, List.filter_filter]
  congr 1
  apply List.filter_congr
  intro d _
  rw [← Bool.decide_and]
  apply decide_eq_decide.2
  simp only [slotOf, cardOf]
  constructor
  · rintro ⟨theirs, beyond, before⟩
    exact ⟨before, theirs, beyond⟩
  · rintro ⟨before, theirs, beyond⟩
    exact ⟨theirs, beyond, before⟩

theorem pending_iff {queue : Queue} {sid : String} {sub : Subscription} {seq : Int} {bound : Nat}
    (found : queue.find? sid = some sub) (issued : ∀ d ∈ queue.deliveries, d.seq ≤ queue.issued) :
    (ledger queue).Pending sid seq bound ↔ (∃ d ∈ unacked queue sub, d.seq = seq) ∧
      ((unacked queue sub).filter (fun d => decide (d.seq ≤ seq))).length ≤ bound := by
  have here := find_id found
  have card : (ledger queue).card? sid = some (cardOf sub) := by rw [card_ledger, found, Option.map_some]
  rw [← waiting_length]
  constructor
  · rintro ⟨other, found_, ahead, slot, _, few⟩
    cases card.symm.trans found_
    obtain ⟨d, held, same⟩ := List.mem_map.1 slot
    cases same
    exact ⟨⟨d, List.mem_filter.2 ⟨held, decide_eq_true ⟨here.symm, ahead⟩⟩, rfl⟩, few⟩
  · rintro ⟨⟨d, mem, rfl⟩, few⟩
    obtain ⟨held, backlog⟩ := List.mem_filter.1 mem
    obtain ⟨theirs, beyond⟩ := of_decide_eq_true backlog
    refine ⟨cardOf sub, card, beyond, ?_, issued d held, few⟩
    rw [← here, ← theirs]
    exact List.mem_map_of_mem held

/-- A pull at the subscription's own cursor returns a number waited for, or brings it closer by a page. -/
theorem pull_pending {queue : Queue} {policy : RetryPolicy} {now sid : String} {principal : Principal}
    {query : DeliveryQuery} {sub : Subscription} {seq : Int} {bound : Nat} (stored : Stored policy queue)
    (loaded : loadOwned queue principal sid = .ok sub) (default_ : Default query)
    (pending : (ledger queue).Pending sid seq bound) :
    ∃ after page, Api.Subscriptions.deliveries queue now principal sid query = ⟨after, .ok page⟩ ∧
      ((∃ row ∈ page.items, row.seq = seq) ∨ (pageLimit query.limit < bound ∧
        (acks query = true → (ledger after).Pending sid seq (bound - pageLimit query.limit)))) := by
  obtain ⟨found, owner⟩ := loadOwned_ok loaded
  obtain ⟨after, page, reply, items, acked⟩ := @pull_default _ _ stored now _ _ _ _ found owner default_
  obtain ⟨⟨d, waiting, rfl⟩, few⟩ := (pending_iff found stored.issued).1 pending
  refine ⟨after, page, reply, ?_⟩
  rcases (unacked_increasing stored sub).page waiting (pageLimit query.limit) with onPage | ⟨later, closer⟩
  · exact Or.inl ⟨d, items ▸ onPage, rfl⟩
  · have itself : 0 < (((unacked queue sub).drop (pageLimit query.limit)).filter
        (fun other => decide (other.seq ≤ d.seq))).length :=
      List.length_pos_of_mem (List.mem_filter.2 ⟨later, decide_eq_true (Int.le_refl _)⟩)
    refine Or.inr ⟨by omega, fun acking => ?_⟩
    obtain ⟨sound, moved, there, _, left⟩ := acked acking
    refine (pending_iff there sound.issued).2 ⟨⟨d, left ▸ later, rfl⟩, ?_⟩
    rw [left]
    omega

/-- The number was returned, or is waited for with the pages read so far behind it. -/
def Reading (sid : String) (seq : Int) (bound : Nat) (readings : Readings) (site : Site) : Prop :=
  (∃ row ∈ readings.seen, row.seq = seq) ∨
    ∃ left, left + readings.room ≤ bound ∧ (ledger site.desk.queue).Pending sid seq left

theorem readNext_seen {sid : String} {before : Readings} {row : Delivery} (mem : row ∈ before.seen) :
    row ∈ (readNext server sid before site event).seen := by
  unfold readNext
  split
  · exact mem
  · exact List.mem_append_left _ mem

theorem pulled_pull {sid : String} {query : DeliveryQuery} {page : Page} (read : pulled server site sid event = some (query, page)) :
    ∃ credential now principal sub, event = .pull credential now sid query ∧
      principalOf server site.state now credential = .ok principal ∧ loadOwned site.desk.queue principal sid = .ok sub ∧
      (Api.Subscriptions.deliveries site.desk.queue now principal sid query).response = .ok page := by
  cases event with
  | pull credential now id asked =>
    simp only [pulled] at read
    split at read
    · rename_i same
      split at read
      · cases read
      · rename_i principal made
        split at read
        · cases read
        · rename_i got reply
          cases read
          cases planned : pullPlan site.desk.queue principal sid query with
          | error e => simp [Api.Subscriptions.deliveries, planned] at reply
          | ok both =>
            obtain ⟨sub, start⟩ := both
            exact ⟨credential, now, principal, sub, by rw [same], made, (pullPlan_ok planned).1, reply⟩
    · cases read
  | registry | subscribe | patch | delete | ack | collect | attempt | restart => cases read

/-- An event that does not acknowledge the number leaves it waited for. -/
theorem event_pending {sid : String} {seq : Int} {bound : Nat} (pending : (ledger site.desk.queue).Pending sid seq bound)
    (keeps : Keeps server courier sid site event)
    (silent : ∀ now cursor, Move.acknowledge sid now cursor ∉ moves server courier site event) :
    (ledger (Dispatch.step server courier site event).desk.queue).Pending sid seq bound := by
  rw [Dispatch.step_desk]
  have meets : Meets (Subscriptions.step courier.policy courier.later)
      (fun _ move => move ≠ .delete sid ∧ ∀ now cursor, move ≠ .acknowledge sid now cursor) site.desk
      (moves server courier site event) :=
    meets_of_forall _ _ _ (fun move mem _ =>
      ⟨fun same => keeps (same ▸ mem), fun now cursor same => silent now cursor (same ▸ mem)⟩)
  exact run_invariant (Subscriptions.step courier.policy courier.later)
    (fun desk => (ledger desk.queue).Pending sid seq bound) pending
    (fun _ _ pending quiet => step_pending pending quiet.1 quiet.2) meets

theorem event_reading {sid : String} {seq : Int} {bound : Nat} {before : Readings}
    (sound : Sound courier.policy site.desk) (reading : Reading sid seq bound before site)
    (follows : Follows server courier sid site event) :
    Reading sid seq bound (readNext server sid before site event) (Dispatch.step server courier site event) := by
  rcases reading with ⟨row, seen, same⟩ | ⟨left, within, pending⟩
  · exact Or.inl ⟨row, readNext_seen seen, same⟩
  · by_cases quiet : ∃ now cursor, Move.acknowledge sid now cursor ∈ moves server courier site event
    · obtain ⟨now, cursor, mem⟩ := quiet
      obtain ⟨credential, query, rfl, default_⟩ := follows.2 now cursor mem
      rcases acknowledge_mem mem with ⟨_, _, principal, sub, start, same, made, planned, acking, _⟩ | ⟨_, clash, _⟩
      · cases same
        obtain ⟨after, page, reply, read⟩ :=
          @pull_pending _ _ now _ _ _ _ _ _ sound.stored (pullPlan_ok planned).1 default_ pending
        have got : pulled server site sid (.pull credential now sid query) = some (query, page) := by
          simp [pulled, made, reply]
        have queue : (Dispatch.step server courier site (.pull credential now sid query)).desk.queue = after := by
          simp [Dispatch.step, Dispatch.owned, made, reply]
        have next : readNext server sid before site (.pull credential now sid query) =
            ⟨before.seen ++ page.items, before.room + pageLimit query.limit⟩ := by
          simp [readNext, got, default_, acking]
        rcases read with ⟨row, onPage, same⟩ | ⟨short, closer⟩
        · left
          rw [next]
          exact ⟨row, List.mem_append_right _ onPage, same⟩
        · right
          rw [next]
          refine ⟨left - pageLimit query.limit, ?_, ?_⟩
          · simp only
            omega
          · rw [queue]
            exact closer acking
      · cases clash
    · right
      have silent : ∀ now cursor, Move.acknowledge sid now cursor ∉ moves server courier site event :=
        fun now cursor mem => quiet ⟨now, cursor, mem⟩
      refine ⟨left, ?_, event_pending pending follows.1 silent⟩
      unfold readNext
      split
      · exact within
      · rename_i query page read
        by_cases acking : acks query = true
        · obtain ⟨credential, now, principal, sub, rfl, made, loaded, reply⟩ := pulled_pull read
          exfalso
          cases planned : pullPlan site.desk.queue principal sid query with
          | error e => simp [Api.Subscriptions.deliveries, planned] at reply
          | ok both =>
            obtain ⟨other, start⟩ := both
            have here := find_id (loadOwned_ok (pullPlan_ok planned).1).1
            let reached := pageEnd (site.desk.queue.deliveriesSince other.id start (pageLimit query.limit)) start
            refine quiet ⟨now, reached, ?_⟩
            simp [moves, Dispatch.ownerMoves, made, Dispatch.pullMoves, planned, acking, here, reached]
        · have stays : ¬(Default query ∧ acks query = true) := fun both => acking both.2
          rw [if_neg stays]
          exact within

theorem readings_reading {sid : String} {seq : Int} {bound : Nat} {further : List Event}
    (sound : Sound courier.policy site.desk) (pending : (ledger site.desk.queue).Pending sid seq bound)
    (follows : Meets (Dispatch.step server courier) (Follows server courier sid) site further) :
    Reading sid seq bound (readings server courier sid site further) (run (Dispatch.step server courier) site further) := by
  have start : Reading sid seq bound {} site := Or.inr ⟨bound, Nat.le_refl bound, pending⟩
  have both := remember_invariant (Dispatch.step server courier)
    (fun seen site => Sound courier.policy site.desk ∧ Reading sid seq bound seen site) ⟨sound, start⟩
    (fun _ _ event kept follows =>
      ⟨Dispatch.step_sound server courier event kept.1, event_reading kept.1 kept.2 follows⟩) follows
  exact both.2

/-- Pulls at the subscription's own cursor that reach over the backlog return every number in it. -/
theorem returned {sid : String} {seq : Int} {bound : Nat} {further : List Event}
    (sound : Sound courier.policy site.desk) (pending : (ledger site.desk.queue).Pending sid seq bound)
    (follows : Meets (Dispatch.step server courier) (Follows server courier sid) site further)
    {credential : Option String} {now : String} {query : DeliveryQuery} (default_ : Default query)
    (owns : Owns server (run (Dispatch.step server courier) site further) credential now sid)
    (reach : bound ≤ (readings server courier sid site further).room + pageLimit query.limit) :
    ∃ row ∈ (readings server courier sid site (further ++ [.pull credential now sid query])).seen, row.seq = seq := by
  have last : readings server courier sid site (further ++ [.pull credential now sid query]) =
      readNext server sid (readings server courier sid site further) (run (Dispatch.step server courier) site further)
        (.pull credential now sid query) := by
    unfold readings
    rw [remember_append]
    rfl
  rw [last]
  rcases readings_reading sound pending follows with ⟨row, seen, same⟩ | ⟨left, within, waits⟩
  · exact ⟨row, readNext_seen seen, same⟩
  · obtain ⟨principal, sub, made, loaded⟩ := owns
    have soundThere : Sound courier.policy (run (Dispatch.step server courier) site further).desk :=
      run_invariant (Dispatch.step server courier) (fun site => Sound courier.policy site.desk) sound
        (fun _ event sound _ => Dispatch.step_sound server courier event sound) follows
    obtain ⟨after, page, reply, read⟩ := @pull_pending _ _ now _ _ _ _ _ _ soundThere.stored loaded default_ waits
    rcases read with ⟨row, onPage, same⟩ | ⟨short, _⟩
    · refine ⟨row, ?_, same⟩
      simp only [readNext, pulled, if_true, made, reply]
      exact List.mem_append_right _ onPage
    · omega

end Events

/-- Where a registry that starts empty gets to. -/
def reached (server : Server) (courier : Courier) (events : List Event) : Site :=
  run (Dispatch.step server courier) Site.empty events

section Specimen

open Specimen

instance (server : Server) (site : Site) (credential : Option String) (now sid : String) :
    Decidable (Owns server site credential now sid) :=
  decidable_of_iff (((principalOf server site.state now credential).toOption.bind
      (fun principal => (loadOwned site.desk.queue principal sid).toOption)).isSome = true) (by
    cases made : principalOf server site.state now credential with
    | error e => simp [Owns, made, Except.toOption]
    | ok principal =>
      cases loaded : loadOwned site.desk.queue principal sid with
      | error e => simp [Owns, made, loaded, Except.toOption]
      | ok sub => simp [Owns, made, loaded, Except.toOption])

/-- A deployment subscribes, its owner acknowledges a number, and an artifact is registered. -/
def subscribed (cursor : Int) : List Event :=
  [served "i" (.createInstance { label := "one" }), .subscribe (some "root") (draw "s") "ia" {},
    .ack (some "root") "2026-01-01T00:00:00Z" "s" cursor]

def registered : Event := served "a" (.createArtifact { title := some "t" })

def polls : Event := .pull (some "root") "2026-01-01T00:00:00Z" "s" {}

end Specimen

end ToolArtifactRegistry.Laws
