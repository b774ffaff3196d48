import ToolArtifactRegistry.Delivering

/-! What reading the queue rests on: which subscription each number was issued for, and how far each
subscription has acknowledged. -/
namespace ToolArtifactRegistry.Subscriptions

open Library.Tables Library.Runs

/-- How far a subscription has acknowledged. -/
structure Card where
  id : String
  inst : String
  cursor : Int
  deriving DecidableEq

/-- Whose a number is. -/
structure Slot where
  sub : String
  seq : Int
  deriving DecidableEq

structure Ledger where
  cards : List Card
  slots : List Slot
  issued : Int

def cardOf (sub : Subscription) : Card := ⟨sub.id, sub.instanceIri, sub.cursorSeq⟩

def slotOf (d : Delivery) : Slot := ⟨d.subscriptionId, d.seq⟩

def ledger (queue : Queue) : Ledger := ⟨queue.subscriptions.map cardOf, queue.deliveries.map slotOf, queue.issued⟩

/-- What a move writes in the ledger. -/
inductive Entry where
  | opened (id inst : String)
  | issued (sub : String) (seq : Int)
  | acknowledged (id : String) (cursor : Int)
  | closed (id : String)

def Card.reach (cursor : Int) (card : Card) : Card := { card with cursor := max card.cursor cursor }

namespace Ledger

def post (book : Ledger) : Entry → Ledger
  | .opened id inst => { book with cards := book.cards ++ [⟨id, inst, 0⟩] }
  | .issued sub seq => { book with slots := book.slots ++ [⟨sub, seq⟩], issued := seq }
  | .acknowledged id cursor =>
    { book with cards := updateWhere (fun card => decide (card.id = id)) (Card.reach cursor) book.cards }
  | .closed id =>
    { book with
      slots := deleteWhere (fun slot => decide (slot.sub = id)) book.slots
      cards := deleteWhere (fun card => decide (card.id = id)) book.cards }

def card? (book : Ledger) (id : String) : Option Card := book.cards.find? (fun card => decide (card.id = id))

/-- The numbers a subscription has not acknowledged, up to one of them. -/
def waiting (book : Ledger) (card : Card) (last : Int) : List Slot :=
  book.slots.filter (fun slot => decide (slot.sub = card.id ∧ card.cursor < slot.seq ∧ slot.seq ≤ last))

end Ledger

section Entries

variable {policy : RetryPolicy} {later : String → Nat → String} {desk : Desk}

/-- A move that is refused, or only concerns how deliveries are attempted, writes nothing. -/
def entryOf (queue : Queue) : Move → Option Entry
  | .subscribe id _ new =>
    if queue.subscriptions.any (fun sub => decide (sub.id = id)) then none else some (.opened id new.instanceIri)
  | .enqueue gap id _ m =>
    if queue.taken id m.subscriptionId m.artifactIri m.role || (queue.find? m.subscriptionId).isNone then none
    else some (.issued m.subscriptionId (queue.issued + 1 + gap))
  | .acknowledge id _ cursor => some (.acknowledged id cursor)
  | .delete id => some (.closed id)
  | _ => none

theorem ledger_updateSubscription (queue : Queue) (id : String) {change : Subscription → Subscription}
    (keeps : ∀ sub, cardOf (change sub) = cardOf sub) : ledger (queue.updateSubscription id change) = ledger queue := by
  simp only [ledger, Queue.updateSubscription, map_updateWhere queue.subscriptions keeps]

theorem ledger_updateDelivery (queue : Queue) {hit : Delivery → Bool} {change : Delivery → Delivery}
    (keeps : ∀ d, slotOf (change d) = slotOf d) : ledger (queue.updateDelivery hit change) = ledger queue := by
  simp only [ledger, Queue.updateDelivery, map_updateWhere queue.deliveries keeps]

theorem ledger_update (queue : Queue) (id now : String) (patch : Patch) :
    ledger (queue.update id now patch) = ledger queue := by
  have changed : ledger (queue.updateSubscription id patch.change) = ledger queue :=
    ledger_updateSubscription queue id (fun _ => rfl)
  have resumed : ledger ((queue.updateSubscription id patch.change).resume id now) = ledger queue := by
    rw [Queue.resume, ledger_updateDelivery, ledger_updateSubscription, changed]
    · exact fun _ => rfl
    · exact fun _ => rfl
  unfold Queue.update
  rw [ledger_updateSubscription]
  · split
    · exact resumed
    · exact changed
  · exact fun _ => rfl

theorem ledger_updateIf (queue : Queue) {condition : Prop} [Decidable condition] {id : String}
    {change : Subscription → Subscription} (keeps : ∀ sub, cardOf (change sub) = cardOf sub) :
    ledger (if condition then queue.updateSubscription id change else queue) = ledger queue := by
  split
  · exact ledger_updateSubscription queue id keeps
  · rfl

theorem ledger_markFailed (queue : Queue) (id subscriptionId now error : String) (code : Option Nat) :
    ledger (queue.markFailed policy later id subscriptionId now error code) = ledger queue := by
  have noted (message : String) (attempts : Nat) (retry : Option String) :
      ledger ((queue.updateDelivery (fun d => decide (d.id = id))
        (Queue.failure now message code attempts retry)).updateSubscription subscriptionId
        (Queue.failedOnce now message)) = ledger queue := by
    rw [ledger_updateSubscription, ledger_updateDelivery]
    · exact fun _ => rfl
    · exact fun _ => rfl
  calc ledger (queue.markFailed policy later id subscriptionId now error code)
      = ledger ((queue.updateDelivery (fun d => decide (d.id = id))
          (Queue.failure now (String.ofList (error.toList.take 400)) code (queue.attemptsOf id + 1)
            (if policy.maxAttempts ≤ queue.attemptsOf id + 1 then none
              else some (later now (policy.backoffSecs (queue.attemptsOf id + 1)))))).updateSubscription subscriptionId
          (Queue.failedOnce now (String.ofList (error.toList.take 400)))) := by
        apply ledger_updateIf
        exact fun _ => rfl
    _ = ledger queue := noted _ _ _

theorem ledger_attempted (queue : Queue) (due : DueDelivery) (now : String) (outcome : Attempt) :
    ledger (attempted policy later queue due now outcome) = ledger queue := by
  cases outcome with
  | answered code =>
    rw [attempted, Queue.markDelivered, ledger_updateSubscription, ledger_updateDelivery]
    · exact fun _ => rfl
    · exact fun _ => rfl
  | failed error code => exact ledger_markFailed queue due.id due.subscriptionId now error code

theorem ledger_ack (queue : Queue) (id now : String) (cursor : Int) :
    ledger (queue.ack id now cursor) = (ledger queue).post (.acknowledged id cursor) := by
  simp only [ledger, Queue.ack, Queue.updateSubscription, Ledger.post, updateWhere, List.map_map, Ledger.mk.injEq,
    and_true]
  apply List.map_congr_left
  intro sub _
  by_cases here : sub.id = id
  · simp [here, cardOf, Card.reach]
  · simp [here, cardOf]

theorem ledger_delete (queue : Queue) (id : String) : ledger (queue.delete id) = (ledger queue).post (.closed id) := by
  simp only [ledger, Queue.delete, Ledger.post, deleteWhere, List.filter_map]
  rfl

theorem ledger_enqueue (queue : Queue) (gap : Nat) (id now : String) (m : Queue.Match) :
    ledger (queue.enqueue gap id now m) =
      ((entryOf queue (.enqueue gap id now m)).elim (ledger queue) (ledger queue).post) := by
  by_cases refused : (queue.taken id m.subscriptionId m.artifactIri m.role ||
      (queue.find? m.subscriptionId).isNone) = true
  · simp only [Queue.enqueue, entryOf, if_pos refused, Option.elim_none]
  · simp only [Queue.enqueue, entryOf, if_neg refused, Option.elim_some]
    rw [ledger_updateSubscription]
    · simp [ledger, Ledger.post, Queue.queued, slotOf]
    · exact fun _ => rfl

/-- Each move writes its entry, or nothing. -/
theorem step_ledger (move : Move) :
    ledger (step policy later desk move).queue =
      (entryOf desk.queue move).elim (ledger desk.queue) (ledger desk.queue).post := by
  cases move with
  | subscribe id now new =>
    simp only [step, Queue.create, entryOf]
    by_cases there : (desk.queue.subscriptions.any (fun sub => decide (sub.id = id))) = true
    · simp [there]
    · simp [there, ledger, Ledger.post, fresh, cardOf]
  | enqueue gap id now m => exact ledger_enqueue desk.queue gap id now m
  | collect now limit =>
    simp only [step, entryOf]
    split <;> rfl
  | attempt now outcome =>
    cases batch : desk.batch with
    | nil =>
      simp only [step, batch]
      rfl
    | cons due rest =>
      simp only [step, batch]
      exact ledger_attempted desk.queue due now outcome
  | restart => rfl
  | update id now patch => exact ledger_update desk.queue id now patch
  | poll id now => exact ledger_updateSubscription desk.queue id (fun _ => rfl)
  | acknowledge id now cursor => exact ledger_ack desk.queue id now cursor
  | delete id => exact ledger_delete desk.queue id

end Entries

namespace Ledger

/-- Numbers are issued upwards, to subscriptions that are there, and an id is opened once. -/
def Fits (book : Ledger) : Entry → Prop
  | .opened id _ => ∀ card ∈ book.cards, card.id ≠ id
  | .issued sub seq => book.issued < seq ∧ ∃ card ∈ book.cards, card.id = sub
  | _ => True

/-- No subscription has acknowledged beyond the numbers issued, and every number issued has its subscription. -/
structure Behind (book : Ledger) : Prop where
  start : 0 ≤ book.issued
  cards : ∀ card ∈ book.cards, card.cursor ≤ book.issued
  slots : ∀ slot ∈ book.slots, slot.seq ≤ book.issued
  backed : ∀ slot ∈ book.slots, ∃ card ∈ book.cards, card.id = slot.sub

theorem post_issued {book : Ledger} {entry : Entry} (fits : book.Fits entry) : book.issued ≤ (book.post entry).issued := by
  cases entry with
  | issued sub seq => exact Int.le_of_lt fits.1
  | opened | acknowledged | closed => exact Int.le_refl _

theorem post_behind {book : Ledger} {entry : Entry} (behind : book.Behind) (fits : book.Fits entry)
    (modest : ∀ id cursor, entry = .acknowledged id cursor → cursor ≤ book.issued) : (book.post entry).Behind := by
  cases entry with
  | opened id inst =>
    refine ⟨behind.start, forall_append behind.cards behind.start, behind.slots, fun slot mem => ?_⟩
    obtain ⟨card, held, same⟩ := behind.backed slot mem
    exact ⟨card, List.mem_append_left _ held, same⟩
  | issued sub seq =>
    obtain ⟨above, there⟩ := fits
    have grown := Int.le_of_lt above
    refine ⟨Int.le_trans behind.start grown, fun card mem => Int.le_trans (behind.cards card mem) grown,
      forall_append (fun slot mem => Int.le_trans (behind.slots slot mem) grown) (Int.le_refl _),
      forall_append behind.backed there⟩
  | acknowledged id cursor =>
    have within := modest id cursor rfl
    refine ⟨behind.start, forall_updateWhere behind.cards (fun card _ _ before => ?_), behind.slots, fun slot mem => ?_⟩
    · exact Int.max_le.2 ⟨before, within⟩
    · obtain ⟨card, held, same⟩ := behind.backed slot mem
      refine ⟨_, mem_updateWhere.2 ⟨card, held, rfl⟩, ?_⟩
      split <;> exact same
  | closed id =>
    refine ⟨behind.start, forall_deleteWhere behind.cards, forall_deleteWhere behind.slots, fun slot mem => ?_⟩
    obtain ⟨held, other⟩ := mem_deleteWhere.1 mem
    obtain ⟨card, there, same⟩ := behind.backed slot held
    exact ⟨card, mem_deleteWhere.2 ⟨there, same ▸ other⟩, same⟩

/-- A number its subscription has still to acknowledge, with at most so many before it. -/
def Pending (book : Ledger) (sub : String) (seq : Int) (bound : Nat) : Prop :=
  ∃ card, book.card? sub = some card ∧ card.cursor < seq ∧ ⟨sub, seq⟩ ∈ book.slots ∧ seq ≤ book.issued ∧
    (book.waiting card seq).length ≤ bound

theorem card_id {book : Ledger} {id : String} {card : Card} (found : book.card? id = some card) : card.id = id := by
  simpa [card?] using List.find?_some found

theorem card_acknowledged {book : Ledger} {id sub : String} {cursor : Int} {card : Card}
    (found : book.card? sub = some card) :
    (book.post (.acknowledged id cursor)).card? sub = some (if card.id = id then card.reach cursor else card) := by
  unfold card? at found ⊢
  simp only [post]
  rw [find_updateWhere, found, Option.map_some]
  · simp only [decide_eq_true_eq]
  · exact fun _ => rfl

/-- Only its own acknowledgements and its end concern a subscription. -/
theorem card_post {book : Ledger} {entry : Entry} {sub : String} {card : Card} (found : book.card? sub = some card)
    (open_ : entry ≠ .closed sub) (silent : ∀ cursor, entry ≠ .acknowledged sub cursor) :
    (book.post entry).card? sub = some card := by
  cases entry with
  | opened id inst =>
    unfold card? at found ⊢
    simp only [post, List.find?_append, found, Option.some_or]
  | issued => exact found
  | acknowledged id cursor =>
    have other : card.id ≠ id := fun same => silent cursor (by rw [← card_id found, same])
    rw [card_acknowledged found, if_neg other]
  | closed id =>
    have other : ¬sub = id := fun same => open_ (by rw [same])
    unfold card? at found ⊢
    simp only [post, deleteWhere, List.find?_filter]
    rw [← found]
    congr 1
    funext candidate
    by_cases here : candidate.id = sub
    · simp [here, other]
    · simp [here]

theorem post_pending {book : Ledger} {entry : Entry} {sub : String} {seq : Int} {bound : Nat}
    (pending : book.Pending sub seq bound) (fits : book.Fits entry) (open_ : entry ≠ .closed sub)
    (silent : ∀ cursor, entry ≠ .acknowledged sub cursor) : (book.post entry).Pending sub seq bound := by
  obtain ⟨card, found, ahead, held, below, few⟩ := pending
  have here := card_id found
  refine ⟨card, card_post found open_ silent, ahead, ?_, Int.le_trans below (post_issued fits), ?_⟩
  · cases entry with
    | issued => exact List.mem_append_left _ held
    | opened | acknowledged => exact held
    | closed id =>
      have other : ¬sub = id := fun same => open_ (by rw [same])
      exact mem_deleteWhere.2 ⟨held, decide_eq_false other⟩
  · cases entry with
    | issued other number =>
      -- a new number lies beyond the one waited for
      have beyond : ¬(other = card.id ∧ card.cursor < number ∧ number ≤ seq) := by
        have above := fits.1
        omega
      simp only [waiting, post, List.filter_append, List.filter_cons, decide_eq_false beyond, List.filter_nil,
        Bool.false_eq_true, if_false, List.append_nil]
      exact few
    | opened | acknowledged => exact few
    | closed id =>
      have fewer : ((book.post (.closed id)).waiting card seq).Sublist (book.waiting card seq) :=
        List.filter_sublist.filter _
      exact Nat.le_trans fewer.length_le few

end Ledger

section Entries

variable {queue : Queue}

theorem entry_fits {move : Move} {entry : Entry} (written : entryOf queue move = some entry) :
    (ledger queue).Fits entry := by
  cases move with
  | subscribe id now new =>
    simp only [entryOf] at written
    split at written
    · cases written
    · rename_i free
      cases written
      intro card mem same
      obtain ⟨sub, held, rfl⟩ := List.mem_map.1 mem
      exact free (List.any_eq_true.2 ⟨sub, held, decide_eq_true same⟩)
  | enqueue gap id now m =>
    simp only [entryOf] at written
    split at written
    · cases written
    · rename_i free
      cases written
      simp only [Bool.or_eq_true, not_or, Bool.not_eq_true, Option.isNone_eq_false_iff, Option.isSome_iff_exists] at free
      obtain ⟨_, sub, found⟩ := free
      refine ⟨?_, cardOf sub, List.mem_map_of_mem (List.mem_of_find?_eq_some found), ?_⟩
      · simp only [ledger]
        omega
      · simpa [cardOf] using List.find?_some found
  | acknowledge id now cursor =>
    cases written
    trivial
  | delete id =>
    cases written
    trivial
  | collect | attempt | restart | update | poll => cases written

theorem acknowledged_move {move : Move} {id : String} {cursor : Int}
    (written : entryOf queue move = some (.acknowledged id cursor)) : ∃ now, move = .acknowledge id now cursor := by
  cases move with
  | subscribe | enqueue =>
    simp only [entryOf] at written
    split at written <;> cases written
  | acknowledge other now number =>
    cases written
    exact ⟨now, rfl⟩
  | delete | collect | attempt | restart | update | poll => cases written

theorem closed_move {move : Move} {id : String} (written : entryOf queue move = some (.closed id)) : move = .delete id := by
  cases move with
  | subscribe | enqueue =>
    simp only [entryOf] at written
    split at written <;> cases written
  | delete other =>
    cases written
    rfl
  | acknowledge | collect | attempt | restart | update | poll => cases written

theorem card_ledger (queue : Queue) (id : String) : (ledger queue).card? id = (queue.find? id).map cardOf := by
  rw [ledger, Ledger.card?, List.find?_map]
  rfl

end Entries

section Steps

variable {policy : RetryPolicy} {later : String → Nat → String} {desk : Desk} {move : Move}

theorem step_behind (behind : (ledger desk.queue).Behind)
    (modest : ∀ id now cursor, move = .acknowledge id now cursor → cursor ≤ desk.queue.issued) :
    (ledger (step policy later desk move).queue).Behind := by
  rw [step_ledger]
  cases written : entryOf desk.queue move with
  | none => exact behind
  | some entry =>
    refine Ledger.post_behind behind (entry_fits written) (fun id cursor same => ?_)
    rw [same] at written
    obtain ⟨now, acknowledged⟩ := acknowledged_move written
    exact modest id now cursor acknowledged

theorem step_pending {sub : String} {seq : Int} {bound : Nat} (pending : (ledger desk.queue).Pending sub seq bound)
    (open_ : move ≠ .delete sub) (silent : ∀ now cursor, move ≠ .acknowledge sub now cursor) :
    (ledger (step policy later desk move).queue).Pending sub seq bound := by
  rw [step_ledger]
  cases written : entryOf desk.queue move with
  | none => exact pending
  | some entry =>
    refine Ledger.post_pending pending (entry_fits written) ?_ ?_
    · intro same
      rw [same] at written
      exact open_ (closed_move written)
    · intro cursor same
      rw [same] at written
      obtain ⟨now, acknowledged⟩ := acknowledged_move written
      exact silent now cursor acknowledged

/-- A subscription that is not deleted is still there, and has acknowledged no less. -/
theorem step_card {sub : String} {card : Card} (found : (ledger desk.queue).card? sub = some card)
    (open_ : move ≠ .delete sub) :
    ∃ after, (ledger (step policy later desk move).queue).card? sub = some after ∧ card.cursor ≤ after.cursor := by
  rw [step_ledger]
  cases written : entryOf desk.queue move with
  | none => exact ⟨card, found, Int.le_refl _⟩
  | some entry =>
    by_cases acknowledged : ∃ cursor, entry = .acknowledged sub cursor
    · obtain ⟨cursor, rfl⟩ := acknowledged
      refine ⟨_, Ledger.card_acknowledged found, ?_⟩
      rw [if_pos (Ledger.card_id found)]
      exact Int.le_max_left _ _
    · refine ⟨card, Ledger.card_post found ?_ (fun cursor same => acknowledged ⟨cursor, same⟩), Int.le_refl _⟩
      intro same
      rw [same] at written
      exact open_ (closed_move written)

/-- Matches issue new numbers and acknowledge nothing. -/
theorem step_match {base : Ledger} {gap : Nat} {id now : String} {m : Queue.Match}
    (cards : (ledger desk.queue).cards = base.cards) (grown : base.issued ≤ desk.queue.issued)
    (slots : ∀ slot ∈ (ledger desk.queue).slots, slot ∈ base.slots ∨ base.issued < slot.seq) :
    (ledger (step policy later desk (.enqueue gap id now m)).queue).cards = base.cards ∧
      ∀ slot ∈ (ledger (step policy later desk (.enqueue gap id now m)).queue).slots,
        slot ∈ base.slots ∨ base.issued < slot.seq := by
  rw [step_ledger]
  cases written : entryOf desk.queue (.enqueue gap id now m) with
  | none => exact ⟨cards, slots⟩
  | some entry =>
    have fits := entry_fits written
    simp only [entryOf] at written
    split at written
    · cases written
    · cases written
      exact ⟨cards, forall_append slots (Or.inr (Int.lt_of_le_of_lt grown fits.1))⟩

/-- Any other move issues no number. -/
theorem step_slots (other : ∀ gap id now m, move ≠ .enqueue gap id now m) :
    ∀ slot ∈ (ledger (step policy later desk move).queue).slots, slot ∈ (ledger desk.queue).slots := by
  rw [step_ledger]
  cases move with
  | enqueue gap id now m => exact absurd rfl (other gap id now m)
  | subscribe id now new =>
    simp only [entryOf]
    split <;> exact fun slot mem => mem
  | delete id => exact fun slot mem => (mem_deleteWhere.1 mem).1
  | acknowledge | collect | attempt | restart | update | poll => exact fun slot mem => mem

end Steps

end ToolArtifactRegistry.Subscriptions
