import ToolArtifactRegistry.Delivering

/-! The worker's attempts taken apart: the batch is read once, each POST goes out on what was read then,
and its outcome is recorded later; owners and requests change the queue at any point in between. -/
namespace ToolArtifactRegistry.Subscriptions

open Library.Tables Library.Runs

/-- The queue, the deliveries collected and not sent yet, and the one on its way. -/
structure Bench where
  queue : Queue := {}
  batch : List DueDelivery := []
  posting : Option DueDelivery := none

inductive Act where
  | collect (now : String) (limit : Nat)
  | post
  | settle (now : String) (outcome : Attempt)
  | restart
  /-- What owners and requests do to the queue. -/
  | other (move : Move)

section

variable (policy : RetryPolicy) (later : String → Nat → String)

namespace Bench

def step (bench : Bench) : Act → Bench
  | .collect now limit =>
    if bench.batch.isEmpty && bench.posting.isNone then { bench with batch := bench.queue.dueDeliveries now limit }
    else bench
  | .post =>
    match bench.posting, bench.batch with
    | none, due :: rest => ⟨bench.queue, rest, some due⟩
    | _, _ => bench
  | .settle now outcome =>
    match bench.posting with
    | some due => ⟨attempted policy later bench.queue due now outcome, bench.batch, none⟩
    | none => bench
  | .restart => ⟨bench.queue, [], none⟩
  | .other move => { bench with queue := (Subscriptions.step policy later ⟨bench.queue, []⟩ move).queue }

/-- The delivery an act sends. -/
def sends (bench : Bench) : Act → Option DueDelivery
  | .post => if bench.posting.isNone then bench.batch.head? else none
  | _ => none

end Bench

/-- A subscription a POST may go to. -/
def Ready (due : DueDelivery) (sub : Subscription) : Prop :=
  sub.enabled = true ∧ sub.deliveryState = .active ∧ sub.webhookUrl = some due.webhookUrl

/-- The delivery's subscription is there, and a POST may go to it. -/
def Contactable (queue : Queue) (due : DueDelivery) : Prop :=
  ∃ sub, queue.find? due.subscriptionId = some sub ∧ Ready due sub

/-- The failures in a row a subscription has on record. -/
def failuresOf (queue : Queue) (id : String) : Nat :=
  ((queue.find? id).map Subscription.consecutiveFailures).getD 0

/-- What is done while deliveries wait leaves their subscriptions alone: none is deleted, disabled or
pointed elsewhere, and none reaches the failures at which it is suspended. -/
def Bench.Undisturbed (bench : Bench) (act : Act) : Prop :=
  ∀ due ∈ bench.batch,
    match act with
    | .other (.update id _ patch) => due.subscriptionId = id →
        patch.enabled ≠ some false ∧ ∀ url, patch.webhookUrl = some url → url = some due.webhookUrl
    | .other (.delete id) => due.subscriptionId ≠ id
    | .settle _ (.failed ..) => ∀ sent, bench.posting = some sent → sent.subscriptionId = due.subscriptionId →
        failuresOf bench.queue due.subscriptionId + 1 < policy.suspendAfter
    | _ => True

end

section Keeping

variable {policy : RetryPolicy} {later : String → Nat → String} {queue : Queue} {due : DueDelivery}

theorem find_of_mem (keyed : Keyed Subscription.id queue.subscriptions) {sub : Subscription}
    (mem : sub ∈ queue.subscriptions) : queue.find? sub.id = some sub := by
  unfold Queue.find?
  cases found : queue.subscriptions.find? (fun other => decide (other.id = sub.id)) with
  | none =>
    have missed := List.find?_eq_none.mp found sub mem
    simp at missed
  | some other =>
    have named : other.id = sub.id := by simpa using List.find?_some found
    rw [keyed.eq (List.mem_of_find?_eq_some found) mem named]

/-- A subscription that stays under its id and stays ready may still be contacted. -/
theorem contactable_updateSubscription {id : String} {change : Subscription → Subscription}
    (keeps : ∀ sub, (change sub).id = sub.id)
    (stays : id = due.subscriptionId → ∀ sub, Ready due sub → Ready due (change sub))
    (contactable : Contactable queue due) : Contactable (queue.updateSubscription id change) due := by
  obtain ⟨sub, found, ready⟩ := contactable
  have moved := @find_updateWhere _ _ Subscription.id _ (fun sub => decide (sub.id = id)) change queue.subscriptions keeps
    due.subscriptionId
  unfold Queue.find? at found
  rw [found, Option.map_some] at moved
  refine ⟨_, moved, ?_⟩
  have named : sub.id = due.subscriptionId := by simpa using List.find?_some found
  by_cases here : sub.id = id
  · rw [if_pos (decide_eq_true here)]
    exact stays (here.symm.trans named) sub ready
  · rw [if_neg (by simpa using here)]
    exact ready

theorem Ready.of_eq {sub other : Subscription} (ready : Ready due sub) (enabled : other.enabled = sub.enabled)
    (state : other.deliveryState = sub.deliveryState) (url : other.webhookUrl = sub.webhookUrl) : Ready due other :=
  ⟨enabled.trans ready.1, state.trans ready.2.1, url.trans ready.2.2⟩

theorem contactable_congr {after : Queue} (same : after.subscriptions = queue.subscriptions)
    (contactable : Contactable queue due) : Contactable after due := by
  unfold Contactable Queue.find? at *
  rw [same]
  exact contactable

theorem contactable_enqueue (gap : Nat) (id now : String) (m : Queue.Match) (contactable : Contactable queue due) :
    Contactable (queue.enqueue gap id now m) due := by
  unfold Queue.enqueue
  split
  · exact contactable
  · refine contactable_updateSubscription ?_ ?_ (contactable_congr rfl contactable)
    · exact fun _ => rfl
    · exact fun _ sub ready => ready.of_eq rfl rfl rfl

theorem contactable_create {id now : String} {new : NewSubscription} {after : Queue}
    (created : queue.create id now new = .ok after) (contactable : Contactable queue due) : Contactable after due := by
  unfold Queue.create at created
  split at created
  · cases created
  · cases created
    obtain ⟨sub, found, ready⟩ := contactable
    refine ⟨sub, ?_, ready⟩
    unfold Queue.find? at found ⊢
    rw [List.find?_append, found, Option.some_or]

theorem contactable_delete {id : String} (other : due.subscriptionId ≠ id) (contactable : Contactable queue due) :
    Contactable (queue.delete id) due := by
  obtain ⟨sub, found, ready⟩ := contactable
  refine ⟨sub, ?_, ready⟩
  unfold Queue.find? at found ⊢
  show (deleteWhere (fun sub => decide (sub.id = id)) queue.subscriptions).find?
    (fun sub => decide (sub.id = due.subscriptionId)) = some sub
  unfold deleteWhere
  rw [List.find?_filter, ← found]
  congr 1
  funext row
  by_cases named : row.id = due.subscriptionId
  · simp [named, other]
  · simp [named]

theorem contactable_update {id now : String} {patch : Patch}
    (allowed : due.subscriptionId = id →
      patch.enabled ≠ some false ∧ ∀ url, patch.webhookUrl = some url → url = some due.webhookUrl)
    (contactable : Contactable queue due) : Contactable (queue.update id now patch) due := by
  have changed : Contactable (queue.updateSubscription id patch.change) due := by
    refine contactable_updateSubscription (fun _ => rfl) (fun here sub ready => ?_) contactable
    obtain ⟨on, url⟩ := allowed here.symm
    refine ⟨?_, ready.2.1, ?_⟩
    · cases said : patch.enabled with
      | none => simp [Patch.change, said, ready.1]
      | some enabled =>
        cases enabled with
        | true => simp [Patch.change, said]
        | false => exact absurd said on
    · cases said : patch.webhookUrl with
      | none => simp [Patch.change, said, ready.2.2]
      | some new => simp [Patch.change, said, url new said]
  unfold Queue.update
  refine contactable_updateSubscription (fun _ => rfl) (fun _ sub ready => ready.of_eq rfl rfl rfl) ?_
  split
  · unfold Queue.resume
    refine contactable_congr rfl ?_
    exact contactable_updateSubscription (fun _ => rfl) (fun _ sub ready => ⟨ready.1, rfl, ready.2.2⟩) changed
  · exact changed

theorem contactable_markDelivered (id subscriptionId now : String) (code attempts : Nat)
    (contactable : Contactable queue due) : Contactable (queue.markDelivered id subscriptionId now code attempts) due := by
  unfold Queue.markDelivered
  refine contactable_updateSubscription (fun _ => rfl) (fun _ sub ready => ready.of_eq rfl rfl rfl) ?_
  exact contactable_congr rfl contactable

/-- A failure that does not reach the threshold, or is another subscription's, leaves this one to be contacted. -/
theorem contactable_markFailed {policy : RetryPolicy} {later : String → Nat → String} {id subscriptionId now error : String}
    {code : Option Nat}
    (short : subscriptionId = due.subscriptionId → failuresOf queue due.subscriptionId + 1 < policy.suspendAfter)
    (contactable : Contactable queue due) :
    Contactable (queue.markFailed policy later id subscriptionId now error code) due := by
  unfold Queue.markFailed
  dsimp only
  generalize failed : queue.updateDelivery _ _ = rows
  have same : rows.subscriptions = queue.subscriptions := by rw [← failed]; rfl
  have held : Contactable rows due := contactable_congr same contactable
  generalize String.ofList (error.toList.take 400) = message
  have noted : Contactable (rows.updateSubscription subscriptionId (Queue.failedOnce now message)) due :=
    contactable_updateSubscription (fun _ => rfl) (fun _ sub ready => ready.of_eq rfl rfl rfl) held
  split
  · next reached =>
    by_cases mine : subscriptionId = due.subscriptionId
    · exfalso
      have below := short mine
      obtain ⟨sub, found, _⟩ := contactable
      have moved := @find_updateWhere _ _ Subscription.id _ (fun sub => decide (sub.id = due.subscriptionId))
        (Queue.failedOnce now message) queue.subscriptions (fun _ => rfl) due.subscriptionId
      unfold Queue.find? at found
      rw [found, Option.map_some] at moved
      have named : sub.id = due.subscriptionId := by simpa using List.find?_some found
      rw [if_pos (decide_eq_true named)] at moved
      have counted : ((rows.updateSubscription subscriptionId (Queue.failedOnce now message)).find? subscriptionId) =
          some (Queue.failedOnce now message sub) := by
        rw [mine]
        unfold Queue.find? Queue.updateSubscription
        rw [same]
        exact moved
      rw [counted] at reached
      unfold failuresOf Queue.find? at below
      rw [found] at below
      simp only [Option.map_some, Option.getD_some, Queue.failedOnce] at reached below
      omega
    · refine contactable_updateSubscription ?_ ?_ noted
      · exact fun _ => rfl
      · exact fun here => absurd here mine
  · exact noted

/-- A move that leaves the subscription alone leaves it to be contacted. -/
theorem contactable_move {policy : RetryPolicy} {later : String → Nat → String} {move : Move}
    (allowed : match move with
      | .update id _ patch => due.subscriptionId = id →
          patch.enabled ≠ some false ∧ ∀ url, patch.webhookUrl = some url → url = some due.webhookUrl
      | .delete id => due.subscriptionId ≠ id
      | _ => True)
    (contactable : Contactable queue due) :
    Contactable (Subscriptions.step policy later ⟨queue, []⟩ move).queue due := by
  cases move with
  | subscribe id now new =>
    simp only [Subscriptions.step]
    split
    · next created => exact contactable_create created contactable
    · exact contactable
  | enqueue gap id now m => exact contactable_enqueue gap id now m contactable
  | collect now limit => exact contactable
  | attempt now outcome => exact contactable
  | restart => exact contactable
  | update id now patch => exact contactable_update allowed contactable
  | poll id now =>
    refine contactable_updateSubscription ?_ ?_ contactable
    · exact fun _ => rfl
    · exact fun _ sub ready => ready.of_eq rfl rfl rfl
  | acknowledge id now cursor =>
    refine contactable_updateSubscription ?_ ?_ contactable
    · exact fun _ => rfl
    · exact fun _ sub ready => ready.of_eq rfl rfl rfl
  | delete id => exact contactable_delete allowed contactable

end Keeping

section Keys

variable {policy : RetryPolicy} {later : String → Nat → String} {queue : Queue}

theorem keyed_update (keyed : Keyed Subscription.id queue.subscriptions) (id now : String) (patch : Patch) :
    Keyed Subscription.id (queue.update id now patch).subscriptions := by
  unfold Queue.update
  refine Keyed.updateWhere ?_ (fun _ => rfl)
  split
  · exact Keyed.updateWhere (keyed.updateWhere (fun _ => rfl)) (fun _ => rfl)
  · exact keyed.updateWhere (fun _ => rfl)

/-- No move brings a second subscription under one id. -/
theorem keyed_move (keyed : Keyed Subscription.id queue.subscriptions) (move : Move) :
    Keyed Subscription.id (Subscriptions.step policy later ⟨queue, []⟩ move).queue.subscriptions := by
  cases move with
  | subscribe id now new =>
    simp only [Subscriptions.step]
    split
    · next created =>
      unfold Queue.create at created
      split at created
      · cases created
      · next free =>
        cases created
        refine keyed.append (fun sub mem same => ?_)
        exact free (List.any_eq_true.2 ⟨sub, mem, decide_eq_true same⟩)
    · exact keyed
  | enqueue gap id now m =>
    simp only [Subscriptions.step, Queue.enqueue]
    split
    · exact keyed
    · exact Keyed.updateWhere keyed (fun _ => rfl)
  | collect now limit => exact keyed
  | attempt now outcome => exact keyed
  | restart => exact keyed
  | update id now patch => exact keyed_update keyed id now patch
  | poll id now => exact keyed.updateWhere (fun _ => rfl)
  | acknowledge id now cursor => exact keyed.updateWhere (fun _ => rfl)
  | delete id => exact keyed.deleteWhere

theorem keyed_attempted (keyed : Keyed Subscription.id queue.subscriptions) (due : DueDelivery) (now : String)
    (outcome : Attempt) : Keyed Subscription.id (attempted policy later queue due now outcome).subscriptions := by
  cases outcome with
  | answered code => exact keyed.updateWhere (fun _ => rfl)
  | failed error code =>
    unfold attempted Queue.markFailed
    dsimp only
    generalize failed : queue.updateDelivery _ _ = rows
    have held : Keyed Subscription.id rows.subscriptions := by
      rw [← failed]
      exact keyed
    split
    · exact Keyed.updateWhere (held.updateWhere (fun _ => rfl)) (fun _ => rfl)
    · exact held.updateWhere (fun _ => rfl)

end Keys

namespace Bench

variable {policy : RetryPolicy} {later : String → Nat → String} {bench : Bench}

/-- Ids name one subscription, and everything that waits to be sent may be. -/
structure Current (bench : Bench) : Prop where
  keyed : Keyed Subscription.id bench.queue.subscriptions
  waiting : ∀ due ∈ bench.batch, Contactable bench.queue due

theorem current_empty : Current {} := ⟨List.nodup_nil, by simp⟩

theorem current_collect (keyed : Keyed Subscription.id bench.queue.subscriptions) (now : String) (limit : Nat) :
    ∀ due ∈ bench.queue.dueDeliveries now limit, Contactable bench.queue due := by
  intro due mem
  obtain ⟨d, _, sub, held, named, isDue, same⟩ := mem_dueDeliveries mem
  simp only [Queue.isDue, Bool.and_eq_true, decide_eq_true_eq] at isDue
  obtain ⟨⟨⟨_, enabled⟩, active⟩, url⟩ := isDue
  obtain ⟨address, given⟩ := Option.isSome_iff_exists.mp url
  rw [same]
  refine ⟨sub, ?_, enabled, active, ?_⟩
  · have found := find_of_mem keyed held
    rw [named] at found
    exact found
  · simp [Queue.dueOf, given]

theorem current_step (current : Current bench) {act : Act} (calm : bench.Undisturbed policy act) :
    Current (step policy later bench act) := by
  cases act with
  | collect now limit =>
    simp only [step]
    split
    · exact ⟨current.keyed, current_collect current.keyed now limit⟩
    · exact current
  | post =>
    simp only [step]
    split
    · next due rest _ batch => exact ⟨current.keyed, fun other mem => current.waiting other (by rw [batch]; exact List.mem_cons_of_mem _ mem)⟩
    · exact current
  | settle now outcome =>
    simp only [step]
    split
    · next sent posting =>
      refine ⟨keyed_attempted current.keyed sent now outcome, fun due mem => ?_⟩
      cases outcome with
      | answered code => exact contactable_markDelivered _ _ _ _ _ (current.waiting due mem)
      | failed error code => exact contactable_markFailed (calm due mem sent posting) (current.waiting due mem)
    · exact current
  | restart => exact ⟨current.keyed, by simp [step]⟩
  | other move =>
    refine ⟨keyed_move current.keyed move, fun due mem => contactable_move ?_ (current.waiting due mem)⟩
    have allowed := calm due mem
    cases move <;> exact allowed

end Bench

end ToolArtifactRegistry.Subscriptions
