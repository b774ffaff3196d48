import ToolArtifactRegistry.Library.Runs
import ToolArtifactRegistry.Subscriptions

/-! The delivery queue as a system: matches are queued and owners change, acknowledge and delete
while one worker collects a batch of what is due and attempts it delivery by delivery. -/
namespace ToolArtifactRegistry.Subscriptions

open Library.Tables Library.Runs

/-- What became of an attempt: the status code, or the error and the code it came with. -/
inductive Attempt where
  | answered (code : Nat)
  | failed (error : String) (code : Option Nat)

structure Desk where
  queue : Queue := {}
  /-- The deliveries the worker collected and has not attempted yet. -/
  batch : List DueDelivery := []

inductive Move where
  | subscribe (id now : String) (new : NewSubscription)
  | enqueue (gap : Nat) (id now : String) (m : Queue.Match)
  | collect (now : String) (limit : Nat)
  | attempt (now : String) (outcome : Attempt)
  /-- The process ends and starts again. -/
  | restart
  | update (id now : String) (patch : Patch)
  | poll (id now : String)
  | acknowledge (id now : String) (cursor : Int)
  | delete (id : String)

section

variable (policy : RetryPolicy) (later : String → Nat → String)

def attempted (queue : Queue) (due : DueDelivery) (now : String) : Attempt → Queue
  | .answered code => queue.markDelivered due.id due.subscriptionId now code (due.attempts + 1)
  | .failed error code => queue.markFailed policy later due.id due.subscriptionId now error code

def step (desk : Desk) : Move → Desk
  | .subscribe id now new =>
    match desk.queue.create id now new with
    | .ok queue => { desk with queue }
    | .error _ => desk
  | .enqueue gap id now m => { desk with queue := desk.queue.enqueue gap id now m }
  | .collect now limit =>
    -- one pass ends before the next begins
    if desk.batch.isEmpty then { desk with batch := desk.queue.dueDeliveries now limit } else desk
  | .attempt now outcome =>
    match desk.batch with
    | [] => desk
    | due :: rest => ⟨attempted policy later desk.queue due now outcome, rest⟩
  | .restart => { desk with batch := [] }
  | .update id now patch => { desk with queue := desk.queue.update id now patch }
  | .poll id now => { desk with queue := desk.queue.touchPolled id now }
  | .acknowledge id now cursor => { desk with queue := desk.queue.ack id now cursor }
  | .delete id => { desk with queue := desk.queue.delete id }

end

/-- What the queue refuses to hold twice. -/
def matchKey (d : Delivery) : String × String × String := (d.subscriptionId, d.artifactIri, d.role)

def Armed (d : Delivery) : Prop := d.nextAttemptAt = none ↔ d.status = .delivered ∨ d.status = .dead

/-- A delivery that may still be attempted. -/
def Open (d : Delivery) : Prop := d.status = .pending ∨ d.status = .failed

/-- What is seen of the queue at any time. -/
structure Orderly (policy : RetryPolicy) (queue : Queue) : Prop where
  unique : Keyed matchKey queue.deliveries
  increasing : Increasing Delivery.seq queue.deliveries
  bounded : ∀ d ∈ queue.deliveries, d.attempts ≤ policy.maxAttempts
  armed : ∀ d ∈ queue.deliveries, Armed d

/-- What keeps a queue so: ids and subscriptions are unique, no sequence number lies ahead of the counter, and
an open delivery has an attempt left. -/
structure Stored (policy : RetryPolicy) (queue : Queue) : Prop extends Orderly policy queue where
  ids : Keyed Delivery.id queue.deliveries
  subscriptions : Keyed Subscription.id queue.subscriptions
  issued : ∀ d ∈ queue.deliveries, d.seq ≤ queue.issued
  left : ∀ d ∈ queue.deliveries, Open d → d.attempts < policy.maxAttempts

/-- Each delivery of the batch was collected with an attempt left and is open until its turn comes. -/
structure Sound (policy : RetryPolicy) (desk : Desk) : Prop where
  stored : Stored policy desk.queue
  batch : ∀ due ∈ desk.batch, due.attempts < policy.maxAttempts
  apart : (desk.batch.map DueDelivery.id).Nodup
  waiting : ∀ due ∈ desk.batch, ∀ d ∈ desk.queue.deliveries, d.id = due.id → Open d

section Operations

variable {policy : RetryPolicy} {queue : Queue}

theorem stored_empty (policy : RetryPolicy) : Stored policy {} where
  unique := by simp [Keyed]
  increasing := by simp [Increasing]
  bounded := by simp
  armed := by simp
  ids := by simp [Keyed]
  subscriptions := by simp [Keyed]
  issued := by simp
  left := by simp

/-- A change of subscriptions that keeps their ids. -/
theorem Stored.updateSubscription (stored : Stored policy queue) {id : String} {change : Subscription → Subscription}
    (keeps : ∀ sub, (change sub).id = sub.id) : Stored policy (queue.updateSubscription id change) :=
  { stored with subscriptions := stored.subscriptions.updateWhere keeps }

theorem Stored.updateIf (stored : Stored policy queue) {condition : Prop} [Decidable condition] {id : String}
    {change : Subscription → Subscription} (keeps : ∀ sub, (change sub).id = sub.id) :
    Stored policy (if condition then queue.updateSubscription id change else queue) := by
  split
  · exact stored.updateSubscription keeps
  · exact stored

/-- A change of deliveries that keeps what identifies them. -/
theorem Stored.updateDelivery (stored : Stored policy queue) {hit : Delivery → Bool} {change : Delivery → Delivery}
    (keeps : ∀ d, (change d).id = d.id ∧ (change d).seq = d.seq ∧ matchKey (change d) = matchKey d)
    (bounded : ∀ d ∈ queue.deliveries, hit d = true → (change d).attempts ≤ policy.maxAttempts)
    (armed : ∀ d, Armed (change d))
    (left : ∀ d ∈ queue.deliveries, hit d = true → Open (change d) → (change d).attempts < policy.maxAttempts) :
    Stored policy (queue.updateDelivery hit change) where
  unique := stored.unique.updateWhere (fun d => (keeps d).2.2)
  increasing := stored.increasing.updateWhere (fun d => (keeps d).2.1)
  bounded := forall_updateWhere stored.bounded (fun d mem here _ => bounded d mem here)
  armed := forall_updateWhere stored.armed (fun d _ _ _ => armed d)
  ids := stored.ids.updateWhere (fun d => (keeps d).1)
  subscriptions := stored.subscriptions
  issued := forall_updateWhere stored.issued (fun d _ _ before => (keeps d).2.1 ▸ before)
  left := forall_updateWhere stored.left (fun d mem here _ => left d mem here)

theorem Stored.create (stored : Stored policy queue) {id now : String} {new : NewSubscription} {after : Queue}
    (created : queue.create id now new = .ok after) : Stored policy after := by
  unfold Queue.create at created
  split at created
  · cases created
  · rename_i free
    cases created
    refine { stored with subscriptions := stored.subscriptions.append ?_ }
    intro sub mem same
    exact free (List.any_eq_true.2 ⟨sub, mem, decide_eq_true same⟩)

theorem Stored.delete (stored : Stored policy queue) (id : String) : Stored policy (queue.delete id) where
  unique := stored.unique.deleteWhere
  increasing := stored.increasing.deleteWhere
  bounded := forall_deleteWhere stored.bounded
  armed := forall_deleteWhere stored.armed
  ids := stored.ids.deleteWhere
  subscriptions := stored.subscriptions.deleteWhere
  issued := forall_deleteWhere stored.issued
  left := forall_deleteWhere stored.left

theorem Stored.resume (stored : Stored policy queue) (id now : String) : Stored policy (queue.resume id now) := by
  have active : Stored policy (queue.updateSubscription id reactivate) := stored.updateSubscription (fun _ => rfl)
  unfold Queue.resume
  refine active.updateDelivery (fun _ => ⟨rfl, rfl, rfl⟩) ?_ ?_ ?_
  · intro d _ _
    exact Nat.zero_le _
  · intro d
    simp [Armed, rearm]
  · intro d _ _ _
    have once := policy.attempts.1
    simp only [rearm]
    omega

theorem Stored.update (stored : Stored policy queue) (id now : String) (patch : Patch) :
    Stored policy (queue.update id now patch) := by
  have changed : Stored policy (queue.updateSubscription id patch.change) := stored.updateSubscription (fun _ => rfl)
  unfold Queue.update
  refine Stored.updateSubscription ?_ (fun _ => rfl)
  split
  · exact changed.resume id now
  · exact changed

/-- A match is queued behind every other, or the queue is left as it is. -/
theorem enqueue_cases (queue : Queue) (gap : Nat) (id now : String) (m : Queue.Match) :
    queue.enqueue gap id now m = queue ∨
      (queue.taken id m.subscriptionId m.artifactIri m.role = false ∧
        (queue.enqueue gap id now m).deliveries = queue.deliveries ++ [Queue.queued (queue.issued + 1 + gap) id now m] ∧
        (queue.enqueue gap id now m).issued = queue.issued + 1 + gap ∧
        (queue.enqueue gap id now m).subscriptions = updateWhere (fun sub => decide (sub.id = m.subscriptionId))
          (fun sub => { sub with lastMatchAt := some now }) queue.subscriptions) := by
  unfold Queue.enqueue
  split
  · exact Or.inl rfl
  · rename_i free
    rw [Bool.or_eq_true, not_or, Bool.not_eq_true] at free
    exact Or.inr ⟨free.1, rfl, rfl, rfl⟩

theorem free_of_not_taken {id subscriptionId artifactIri role : String}
    (free : queue.taken id subscriptionId artifactIri role = false) :
    ∀ d ∈ queue.deliveries, d.id ≠ id ∧ matchKey d ≠ (subscriptionId, artifactIri, role) := by
  intro d mem
  unfold Queue.taken at free
  rw [List.any_eq_false] at free
  have apart := of_decide_eq_false (Bool.eq_false_iff.2 (free d mem))
  rw [not_or] at apart
  refine ⟨apart.1, fun same => apart.2 ?_⟩
  simpa [matchKey] using same

theorem Stored.enqueue (stored : Stored policy queue) (gap : Nat) (id now : String) (m : Queue.Match) :
    Stored policy (queue.enqueue gap id now m) := by
  rcases enqueue_cases queue gap id now m with same | ⟨free, deliveries, issued, subscriptions⟩
  · rw [same]
    exact stored
  · have fresh := free_of_not_taken free
    have once := policy.attempts.1
    refine ⟨⟨?_, ?_, ?_, ?_⟩, ?_, ?_, ?_, ?_⟩
    · rw [deliveries]
      exact stored.unique.append (fun d mem => (fresh d mem).2)
    · rw [deliveries]
      refine stored.increasing.append (fun d mem => ?_)
      have before := stored.issued d mem
      simp only [Queue.queued]
      omega
    · rw [deliveries]
      exact forall_append stored.bounded (Nat.zero_le _)
    · rw [deliveries]
      refine forall_append stored.armed ?_
      simp [Armed, Queue.queued]
    · rw [deliveries]
      exact stored.ids.append (fun d mem => (fresh d mem).1)
    · rw [subscriptions]
      exact stored.subscriptions.updateWhere (fun _ => rfl)
    · rw [deliveries, issued]
      refine forall_append (fun d mem => ?_) ?_
      · have before := stored.issued d mem
        omega
      · exact Int.le_refl _
    · rw [deliveries]
      refine forall_append stored.left (fun _ => ?_)
      simp only [Queue.queued]
      omega

theorem Stored.markDelivered (stored : Stored policy queue) {due : DueDelivery} {now : String} {code : Nat}
    (left : due.attempts < policy.maxAttempts) :
    Stored policy (queue.markDelivered due.id due.subscriptionId now code (due.attempts + 1)) := by
  refine Stored.updateSubscription ?_ (fun _ => rfl)
  refine stored.updateDelivery (fun _ => ⟨rfl, rfl, rfl⟩) ?_ ?_ ?_
  · intro d _ _
    exact left
  · intro d
    simp [Armed, Queue.success]
  · intro d _ _ open_
    simp [Open, Queue.success] at open_

theorem attemptsOf_eq (stored : Stored policy queue) {d : Delivery} (held : d ∈ queue.deliveries) :
    queue.attemptsOf d.id = d.attempts := by
  unfold Queue.attemptsOf
  cases found : queue.deliveries.find? (fun other => decide (other.id = d.id)) with
  | none =>
    rw [List.find?_eq_none] at found
    exact absurd (decide_eq_true rfl) (found d held)
  | some other =>
    have same : other.id = d.id := by simpa using List.find?_some found
    have one := stored.ids.eq (List.mem_of_find?_eq_some found) held same
    rw [one]
    rfl

theorem Stored.markFailed (stored : Stored policy queue) {later : String → Nat → String}
    {id subscriptionId now error : String} {code : Option Nat}
    (waiting : ∀ d ∈ queue.deliveries, d.id = id → Open d) :
    Stored policy (queue.markFailed policy later id subscriptionId now error code) := by
  have count : ∀ d ∈ queue.deliveries, d.id = id → queue.attemptsOf id < policy.maxAttempts := by
    intro d mem here
    rw [← here, attemptsOf_eq stored mem]
    exact stored.left d mem (waiting d mem here)
  have backed (message : String) (retry : Option String)
      (ends : retry = none ↔ policy.maxAttempts ≤ queue.attemptsOf id + 1) :
      Stored policy (queue.updateDelivery (fun d => decide (d.id = id))
        (Queue.failure now message code (queue.attemptsOf id + 1) retry)) := by
    refine stored.updateDelivery (fun _ => ⟨rfl, rfl, rfl⟩) ?_ ?_ ?_
    · intro d mem here
      have below := count d mem (of_decide_eq_true here)
      exact below
    · intro d
      cases retry <;> simp [Armed, Queue.failure]
    · intro d _ _ open_
      cases retry with
      | none => simp [Open, Queue.failure] at open_
      | some at_ =>
        have more : ¬policy.maxAttempts ≤ queue.attemptsOf id + 1 := fun enough => by simpa using ends.2 enough
        simpa [Queue.failure] using more
  unfold Queue.markFailed
  have noted : Stored policy ((queue.updateDelivery (fun d => decide (d.id = id))
      (Queue.failure now (String.ofList (error.toList.take 400)) code (queue.attemptsOf id + 1)
        (if policy.maxAttempts ≤ queue.attemptsOf id + 1 then none
          else some (later now (policy.backoffSecs (queue.attemptsOf id + 1)))))).updateSubscription subscriptionId
      (Queue.failedOnce now (String.ofList (error.toList.take 400)))) :=
    Stored.updateSubscription (backed _ _ (by split <;> simp_all)) (fun _ => rfl)
  exact noted.updateIf (fun _ => rfl)

end Operations

section Collecting

variable {policy : RetryPolicy} {queue : Queue}

theorem mem_joined {row : Delivery × Subscription} : row ∈ queue.joined ↔
    row.1 ∈ queue.deliveries ∧ row.2 ∈ queue.subscriptions ∧ row.2.id = row.1.subscriptionId := by
  obtain ⟨d, sub⟩ := row
  simp only [Queue.joined, List.mem_flatMap, List.mem_map, List.mem_filter, decide_eq_true_eq, Prod.mk.injEq]
  constructor
  · rintro ⟨other, mem, found, ⟨inTable, same⟩, rfl, rfl⟩
    exact ⟨mem, inTable, same⟩
  · rintro ⟨mem, inTable, same⟩
    exact ⟨d, mem, sub, ⟨inTable, same⟩, rfl, rfl⟩

theorem mem_dueDeliveries {now : String} {limit : Nat} {due : DueDelivery} (mem : due ∈ queue.dueDeliveries now limit) :
    ∃ d ∈ queue.deliveries, ∃ sub ∈ queue.subscriptions, sub.id = d.subscriptionId ∧
      Queue.isDue now d sub = true ∧ due = Queue.dueOf d sub := by
  unfold Queue.dueDeliveries at mem
  obtain ⟨row, taken, rfl⟩ := List.mem_map.1 mem
  have inRows := (List.perm_insertionSort _ _).mem_iff.1 (List.mem_of_mem_take taken)
  obtain ⟨joined, isDue⟩ := List.mem_filter.1 inRows
  obtain ⟨held, sub, same⟩ := mem_joined.1 joined
  exact ⟨row.1, held, row.2, sub, same, isDue, rfl⟩

theorem open_of_isDue {now : String} {d : Delivery} {sub : Subscription} (due : Queue.isDue now d sub = true) : Open d := by
  simp only [Queue.isDue, Bool.and_eq_true, decide_eq_true_eq] at due
  exact due.1.1.1.1

theorem flatMap_sublist {α : Type} {items : List α} {parts : α → List α} (each : ∀ item, (parts item).Sublist [item]) :
    (items.flatMap parts).Sublist items := by
  induction items with
  | nil => exact List.Sublist.refl _
  | cons item rest ih => exact (each item).append ih

theorem map_const_sublist {α β : Type} {rows : List α} (few : rows.length ≤ 1) (item : β) :
    (rows.map (fun _ => item)).Sublist [item] := by
  match rows with
  | [] => simp
  | [only] => simp
  | first :: second :: rest => simp at few

theorem subscriptionOf_one (stored : Stored policy queue) (id : String) :
    (queue.subscriptions.filter (fun sub => decide (sub.id = id))).length ≤ 1 := by
  have keyed : Keyed Subscription.id (queue.subscriptions.filter (fun sub => decide (sub.id = id))) :=
    List.Nodup.sublist (List.filter_sublist.map Subscription.id) stored.subscriptions
  have same : ∀ sub ∈ queue.subscriptions.filter (fun sub => decide (sub.id = id)), sub.id = id :=
    fun sub mem => of_decide_eq_true (List.mem_filter.1 mem).2
  generalize queue.subscriptions.filter (fun sub => decide (sub.id = id)) = rows at keyed same
  match rows with
  | [] => simp
  | [only] => simp
  | first :: second :: rest =>
    have clash : first.id = second.id := (same first (by simp)).trans (same second (by simp)).symm
    simp [Keyed, clash] at keyed

/-- A delivery has one subscription, so it is joined once. -/
theorem joined_sublist (stored : Stored policy queue) : (queue.joined.map Prod.fst).Sublist queue.deliveries := by
  unfold Queue.joined
  rw [List.map_flatMap]
  apply flatMap_sublist
  intro d
  rw [List.map_map]
  exact map_const_sublist (subscriptionOf_one stored d.subscriptionId) d

theorem due_ids (stored : Stored policy queue) (now : String) (limit : Nat) :
    ((queue.dueDeliveries now limit).map DueDelivery.id).Nodup := by
  have joined : (queue.joined.map (fun row => row.1.id)).Nodup := by
    have within := (joined_sublist stored).map Delivery.id
    rw [List.map_map] at within
    exact stored.ids.sublist within
  have sorted : (((queue.joined.filter (fun row => Queue.isDue now row.1 row.2)).insertionSort
      (fun left right => Queue.dueBefore left right = true)).map (fun row => row.1.id)).Nodup :=
    ((List.perm_insertionSort _ _).map _).nodup_iff.2 (joined.sublist (List.filter_sublist.map _))
  unfold Queue.dueDeliveries
  rw [List.map_map]
  exact sorted.sublist ((List.take_sublist _ _).map _)

end Collecting

section Steps

variable (policy : RetryPolicy) (later : String → Nat → String) (desk : Desk)

theorem update_rows {queue : Queue} {id now : String} {patch : Patch} {d : Delivery}
    (mem : d ∈ (queue.update id now patch).deliveries) :
    d ∈ queue.deliveries ∨ (patch.resume = true ∧ ∃ old ∈ queue.deliveries, stuck id old = true ∧ d = rearm now old) := by
  have resumed : d ∈ (if patch.resume then (queue.updateSubscription id patch.change).resume id now
      else queue.updateSubscription id patch.change).deliveries := mem
  split at resumed
  · rename_i resumes
    obtain ⟨old, held, same⟩ := mem_updateWhere.1 resumed
    split at same
    · rename_i was
      exact Or.inr ⟨resumes, old, held, was, same⟩
    · exact Or.inl (same ▸ held)
  · exact Or.inl resumed

theorem updateIf_deliveries {queue : Queue} {condition : Prop} [Decidable condition] {id : String}
    {change : Subscription → Subscription} :
    (if condition then queue.updateSubscription id change else queue).deliveries = queue.deliveries ∧
      (if condition then queue.updateSubscription id change else queue).issued = queue.issued := by
  split <;> exact ⟨rfl, rfl⟩

theorem markFailed_deliveries (queue : Queue) (id subscriptionId now error : String) (code : Option Nat) :
    ∃ retry, (queue.markFailed policy later id subscriptionId now error code).deliveries =
        updateWhere (fun d => decide (d.id = id)) (Queue.failure now (String.ofList (error.toList.take 400)) code
          (queue.attemptsOf id + 1) retry) queue.deliveries ∧
      (queue.markFailed policy later id subscriptionId now error code).issued = queue.issued := by
  refine ⟨if policy.maxAttempts ≤ queue.attemptsOf id + 1 then none
    else some (later now (policy.backoffSecs (queue.attemptsOf id + 1))), ?_⟩
  exact updateIf_deliveries

theorem attempted_rows {queue : Queue} {due : DueDelivery} {now : String} {outcome : Attempt} {d : Delivery}
    (mem : d ∈ (attempted policy later queue due now outcome).deliveries) :
    d ∈ queue.deliveries ∨ ∃ old ∈ queue.deliveries, old.id = due.id ∧ d.id = old.id ∧ d.seq = old.seq ∧
      d.subscriptionId = old.subscriptionId := by
  have changed : ∃ change : Delivery → Delivery,
      (∀ d, (change d).id = d.id ∧ (change d).seq = d.seq ∧ (change d).subscriptionId = d.subscriptionId) ∧
      d ∈ updateWhere (fun d => decide (d.id = due.id)) change queue.deliveries := by
    cases outcome with
    | answered code => exact ⟨Queue.success now code (due.attempts + 1), fun _ => ⟨rfl, rfl, rfl⟩, mem⟩
    | failed error code =>
      obtain ⟨retry, deliveries, _⟩ := markFailed_deliveries policy later queue due.id due.subscriptionId now error code
      rw [attempted, deliveries] at mem
      exact ⟨Queue.failure now (String.ofList (error.toList.take 400)) code (queue.attemptsOf due.id + 1) retry,
        fun _ => ⟨rfl, rfl, rfl⟩, mem⟩
  obtain ⟨change, keeps, inTable⟩ := changed
  obtain ⟨old, held, same⟩ := mem_updateWhere.1 inTable
  split at same
  · rename_i here
    rw [same]
    exact Or.inr ⟨old, held, of_decide_eq_true here, keeps old⟩
  · exact Or.inl (same ▸ held)

/-- Where a row of the queue after a move comes from: it was there, it is a new match, the worker
attempted it, or its subscription was resumed. -/
theorem step_rows {move : Move} {d : Delivery} (mem : d ∈ (step policy later desk move).queue.deliveries) :
    d ∈ desk.queue.deliveries ∨ (desk.queue.issued < d.seq ∧ d.status = .pending) ∨
      (∃ due, desk.batch = due :: (step policy later desk move).batch ∧ ∃ old ∈ desk.queue.deliveries,
        old.id = due.id ∧ d.id = old.id ∧ d.seq = old.seq ∧ d.subscriptionId = old.subscriptionId) ∨
      ∃ id now patch, move = .update id now patch ∧ patch.resume = true ∧
        ∃ old ∈ desk.queue.deliveries, stuck id old = true ∧ d = rearm now old := by
  cases move with
  | subscribe id now new =>
    simp only [step] at mem
    split at mem
    · rename_i queue created
      unfold Queue.create at created
      split at created
      · cases created
      · cases created
        exact Or.inl mem
    · exact Or.inl mem
  | enqueue gap id now m =>
    rcases enqueue_cases desk.queue gap id now m with same | ⟨_, deliveries, _, _⟩
    · simp only [step, same] at mem
      exact Or.inl mem
    · simp only [step, deliveries, List.mem_append, List.mem_singleton] at mem
      rcases mem with old | rfl
      · exact Or.inl old
      · refine Or.inr (Or.inl ⟨?_, rfl⟩)
        simp only [Queue.queued]
        omega
  | collect now limit =>
    simp only [step] at mem
    split at mem <;> exact Or.inl mem
  | attempt now outcome =>
    cases batch : desk.batch with
    | nil =>
      simp only [step, batch] at mem
      exact Or.inl mem
    | cons due rest =>
      simp only [step, batch] at mem ⊢
      rcases attempted_rows policy later mem with old | changed
      · exact Or.inl old
      · exact Or.inr (Or.inr (Or.inl ⟨due, rfl, changed⟩))
  | restart => exact Or.inl mem
  | update id now patch =>
    rcases update_rows mem with old | ⟨resumes, changed⟩
    · exact Or.inl old
    · exact Or.inr (Or.inr (Or.inr ⟨id, now, patch, rfl, resumes, changed⟩))
  | poll id now => exact Or.inl mem
  | acknowledge id now cursor => exact Or.inl mem
  | delete id => exact Or.inl (mem_deleteWhere.1 mem).1

/-- The batch is kept, begun, shortened by the delivery attempted, or lost. -/
theorem step_batch (move : Move) :
    (step policy later desk move).batch = desk.batch ∨
      (∃ due, desk.batch = due :: (step policy later desk move).batch) ∨
      (step policy later desk move).batch = [] ∨
      ∃ now limit, (step policy later desk move).batch = desk.queue.dueDeliveries now limit ∧
        (step policy later desk move).queue = desk.queue := by
  cases move with
  | subscribe id now new =>
    left
    simp only [step]
    split <;> rfl
  | collect now limit =>
    simp only [step]
    split
    · exact Or.inr (Or.inr (Or.inr ⟨now, limit, rfl, rfl⟩))
    · exact Or.inl rfl
  | attempt now outcome =>
    cases batch : desk.batch with
    | nil => simp [step, batch]
    | cons due rest => simp [step, batch]
  | restart => exact Or.inr (Or.inr (Or.inl rfl))
  | enqueue | update | poll | acknowledge | delete => exact Or.inl rfl

theorem step_issued (move : Move) : desk.queue.issued ≤ (step policy later desk move).queue.issued := by
  cases move with
  | subscribe id now new =>
    simp only [step]
    split
    · rename_i queue created
      unfold Queue.create at created
      split at created
      · cases created
      · cases created
        exact Int.le_refl _
    · exact Int.le_refl _
  | enqueue gap id now m =>
    rcases enqueue_cases desk.queue gap id now m with same | ⟨_, _, issued, _⟩
    · simp only [step, same, Int.le_refl]
    · simp only [step, issued]
      omega
  | collect now limit =>
    simp only [step]
    split <;> exact Int.le_refl _
  | attempt now outcome =>
    cases batch : desk.batch with
    | nil => simp only [step, batch, Int.le_refl]
    | cons due rest =>
      simp only [step, batch]
      cases outcome with
      | answered code => exact Int.le_refl _
      | failed error code =>
        obtain ⟨_, _, issued⟩ :=
          markFailed_deliveries policy later desk.queue due.id due.subscriptionId now error code
        exact Int.le_of_eq issued.symm
  | update id now patch =>
    simp only [step, Queue.update]
    split <;> exact Int.le_refl _
  | restart | poll | acknowledge | delete => exact Int.le_refl _

variable {policy later desk}

theorem step_stored {move : Move} (sound : Sound policy desk) : Stored policy (step policy later desk move).queue := by
  have stored := sound.stored
  cases move with
  | subscribe id now new =>
    simp only [step]
    split
    · rename_i queue created
      exact stored.create created
    · exact stored
  | enqueue gap id now m => exact stored.enqueue gap id now m
  | collect now limit =>
    simp only [step]
    split <;> exact stored
  | attempt now outcome =>
    cases batch : desk.batch with
    | nil =>
      simp only [step, batch]
      exact stored
    | cons due rest =>
      have head : due ∈ desk.batch := by simp [batch]
      simp only [step, batch]
      cases outcome with
      | answered code => exact stored.markDelivered (sound.batch due head)
      | failed error code => exact stored.markFailed (sound.waiting due head)
  | restart => exact stored
  | update id now patch => exact stored.update id now patch
  | poll id now => exact stored.updateSubscription (fun _ => rfl)
  | acknowledge id now cursor => exact stored.updateSubscription (fun _ => rfl)
  | delete id => exact stored.delete id

theorem step_sound {move : Move} (sound : Sound policy desk) : Sound policy (step policy later desk move) := by
  have stored := sound.stored
  refine ⟨step_stored sound, ?_, ?_, ?_⟩
  · intro due mem
    rcases step_batch policy later desk move with kept | ⟨head, popped⟩ | lost | ⟨now, limit, collected, _⟩
    · exact sound.batch due (kept ▸ mem)
    · exact sound.batch due (popped ▸ List.mem_cons_of_mem head mem)
    · simp [lost] at mem
    · rw [collected] at mem
      obtain ⟨d, held, sub, _, _, due_, rfl⟩ := mem_dueDeliveries mem
      exact stored.left d held (open_of_isDue due_)
  · rcases step_batch policy later desk move with kept | ⟨head, popped⟩ | lost | ⟨now, limit, collected, _⟩
    · rw [kept]
      exact sound.apart
    · have apart := sound.apart
      rw [popped, List.map_cons, List.nodup_cons] at apart
      exact apart.2
    · simp [lost]
    · rw [collected]
      exact due_ids stored now limit
  · intro due mem d held here
    have old (inBatch : due ∈ desk.batch) (before : d ∈ desk.queue.deliveries) : Open d :=
      sound.waiting due inBatch d before here
    rcases step_rows policy later desk held with before | ⟨_, pending⟩ | ⟨head, popped, was, inTable, theirs, id, _⟩ |
      ⟨_, _, _, _, _, was, _, _, rfl⟩
    · rcases step_batch policy later desk move with kept | ⟨head, popped⟩ | lost | ⟨now, limit, collected, _⟩
      · exact old (kept ▸ mem) before
      · exact old (popped ▸ List.mem_cons_of_mem head mem) before
      · simp [lost] at mem
      · rw [collected] at mem
        obtain ⟨found, inTable, sub, _, _, isDue, rfl⟩ := mem_dueDeliveries mem
        have same : d = found := stored.ids.eq before inTable here
        exact same ▸ open_of_isDue isDue
    · exact Or.inl pending
    · have apart := sound.apart
      rw [popped, List.map_cons, List.nodup_cons] at apart
      have clash : due.id = head.id := here.symm.trans (id.trans theirs)
      exact absurd (List.mem_map.2 ⟨due, mem, clash⟩) apart.1
    · exact Or.inl rfl

end Steps

end ToolArtifactRegistry.Subscriptions
