import ToolArtifactRegistry.Laws.Acknowledging

/-! What a pull or an acknowledgement says is left. It is the distance from the cursor to the subscription's
last number, while the numbers are issued to all subscriptions together: the count is right exactly where no
number in between went to another. -/
namespace ToolArtifactRegistry.Laws

open Library.Runs Library.Tables Auth ToolArtifactRegistry.Subscriptions
open Api.Subscriptions (DeliveryQuery pageLimit pageEnd acks cursorOf loadOwned pullPlan wrap64)

section Gaps

/-- Each number is the one after the number before it. -/
def Consecutive (numbers : List Int) : Prop := numbers.IsChain (fun before after => after = before + 1)

instance (numbers : List Int) : Decidable (Consecutive numbers) := inferInstanceAs (Decidable (numbers.IsChain _))

theorem consecutive_nil : Consecutive [] := List.IsChain.nil

theorem consecutive_single (number : Int) : Consecutive [number] := List.IsChain.singleton number

theorem consecutive_cons {start number : Int} {rest : List Int} :
    Consecutive (start :: number :: rest) ↔ number = start + 1 ∧ Consecutive (number :: rest) :=
  List.isChain_cons_cons

/-- The distance to the last of some growing numbers is at least how many they are. -/
theorem length_le_distance {start : Int} {numbers : List Int} (increasing : (start :: numbers).Pairwise (· < ·)) :
    (numbers.length : Int) ≤ numbers.getLast?.getD start - start := by
  induction numbers generalizing start with
  | nil => simp
  | cons number rest ih =>
    obtain ⟨above, tail⟩ := List.pairwise_cons.1 increasing
    have beyond := above number List.mem_cons_self
    have onwards := ih tail
    rw [List.getLast?_cons, Option.getD_some, List.length_cons]
    omega

/-- And it is exactly that many where they leave no gap. -/
theorem distance_eq_length_iff {start : Int} {numbers : List Int} (increasing : (start :: numbers).Pairwise (· < ·)) :
    numbers.getLast?.getD start - start = numbers.length ↔ Consecutive (start :: numbers) := by
  induction numbers generalizing start with
  | nil => simp [consecutive_single]
  | cons number rest ih =>
    obtain ⟨above, tail⟩ := List.pairwise_cons.1 increasing
    have beyond := above number List.mem_cons_self
    have onwards := length_le_distance tail
    rw [consecutive_cons, ← ih tail, List.getLast?_cons, Option.getD_some, List.length_cons]
    omega

/-- The greatest of growing numbers is the last one. -/
theorem max_eq_getLast {numbers : List Int} (increasing : numbers.Pairwise (· < ·)) :
    numbers.max? = numbers.getLast? := by
  cases last : numbers.getLast? with
  | none => simp [List.getLast?_eq_none_iff.1 last]
  | some greatest =>
    obtain ⟨front, rfl⟩ := List.getLast?_eq_some_iff.1 last
    rw [List.max?_eq_some_iff]
    refine ⟨by simp, fun number mem => ?_⟩
    rcases List.mem_append.1 mem with before | here
    · exact Int.le_of_lt ((List.pairwise_append.1 increasing).2.2 number before greatest List.mem_cons_self)
    · exact Int.le_of_eq (List.mem_singleton.1 here)

/-- What lies beyond a number ends where everything ends, unless nothing does. -/
theorem getLast_above {numbers : List Int} (increasing : numbers.Pairwise (· < ·)) (start : Int) :
    (numbers.filter (fun number => decide (start < number))).getLast?.getD start =
      max start (numbers.getLast?.getD start) := by
  cases last : numbers.getLast? with
  | none => simp [List.getLast?_eq_none_iff.1 last]
  | some greatest =>
    obtain ⟨front, rfl⟩ := List.getLast?_eq_some_iff.1 last
    rw [Option.getD_some, List.filter_append]
    by_cases beyond : start < greatest
    · have kept : [greatest].filter (fun number => decide (start < number)) = [greatest] := by simp [beyond]
      rw [kept, List.getLast?_append_of_ne_nil _ (List.cons_ne_nil _ _), List.getLast?_singleton, Option.getD_some]
      omega
    · have none_ : (front ++ [greatest]).filter (fun number => decide (start < number)) = [] := by
        rw [List.filter_eq_nil_iff]
        intro number mem
        rw [decide_eq_true_eq]
        rcases List.mem_append.1 mem with before | here
        · have below := (List.pairwise_append.1 increasing).2.2 number before greatest List.mem_cons_self
          omega
        · rw [List.mem_singleton.1 here]
          exact beyond
      rw [← List.filter_append, none_, List.getLast?_nil, Option.getD_none]
      omega

end Gaps

section Counts

variable {policy : RetryPolicy} {later : String → Nat → String}

/-- What a 64-bit integer holds. -/
def Narrow (value : Int) : Prop := -9223372036854775808 ≤ value ∧ value ≤ 9223372036854775807

instance (value : Int) : Decidable (Narrow value) := inferInstanceAs (Decidable (_ ∧ _))

/-- The numbers of a subscription's deliveries. -/
def numbersOf (queue : Queue) (sid : String) : List Int :=
  (queue.deliveries.filter (fun d => decide (d.subscriptionId = sid))).map Delivery.seq

/-- Those after a cursor. -/
def numbersAfter (queue : Queue) (sid : String) (cursor : Int) : List Int :=
  (numbersOf queue sid).filter (fun number => decide (cursor < number))

/-- A count of the deliveries after a cursor, with no overflow on the way to it. -/
def Counts (queue : Queue) (sid : String) (cursor remaining : Int) : Prop :=
  remaining = (numbersAfter queue sid cursor).length ∧ Narrow (queue.maxSeq sid - cursor)

instance (queue : Queue) (sid : String) (cursor remaining : Int) : Decidable (Counts queue sid cursor remaining) :=
  inferInstanceAs (Decidable (_ ∧ _))

/-- What both handlers answer. -/
def remains (queue : Queue) (sid : String) (cursor : Int) : Int := max (wrap64 (queue.maxSeq sid - cursor)) 0

/-- The numbers issued, and the cursors, fit their columns. -/
structure Fitting (queue : Queue) : Prop where
  issued : queue.issued ≤ 9223372036854775807
  numbers : ∀ d ∈ queue.deliveries, 1 ≤ d.seq
  cursors : ∀ sub ∈ queue.subscriptions, 0 ≤ sub.cursorSeq ∧ sub.cursorSeq ≤ 9223372036854775807

theorem numbersOf_increasing {queue : Queue} (stored : Stored policy queue) (sid : String) :
    (numbersOf queue sid).Pairwise (· < ·) :=
  List.Pairwise.sublist (List.filter_sublist.map Delivery.seq) stored.increasing

theorem numbersAfter_eq (queue : Queue) (sid : String) (cursor : Int) :
    numbersAfter queue sid cursor =
      (queue.deliveries.filter (fun d => decide (d.subscriptionId = sid ∧ cursor < d.seq))).map Delivery.seq := by
  rw [numbersAfter, numbersOf, List.filter_map, List.filter_filter]
  congr 1
  apply List.filter_congr
  intro d _
  simp [Bool.and_comm]

theorem cons_increasing {queue : Queue} (stored : Stored policy queue) (sid : String) (cursor : Int) :
    (cursor :: numbersAfter queue sid cursor).Pairwise (· < ·) :=
  List.pairwise_cons.2 ⟨fun _ mem => of_decide_eq_true (List.mem_filter.1 mem).2,
    (numbersOf_increasing stored sid).filter _⟩

/-- The count is right exactly when the numbers after the cursor follow it without a gap; a subscription that
has no delivery counts as one whose last number is nought. -/
theorem counts_iff {queue : Queue} (stored : Stored policy queue) (fitting : Fitting queue) (sid : String)
    {cursor : Int} (narrow : Narrow cursor) :
    Counts queue sid cursor (remains queue sid cursor) ↔
      Consecutive (cursor :: numbersAfter queue sid cursor) ∧ (0 ≤ cursor ∨ numbersOf queue sid ≠ []) := by
  obtain ⟨low, high⟩ := narrow
  have last := max_eq_getLast (numbersOf_increasing stored sid)
  have ends := getLast_above (numbersOf_increasing stored sid) cursor
  have distance := distance_eq_length_iff (cons_increasing stored sid cursor)
  have atLeast := length_le_distance (cons_increasing stored sid cursor)
  rw [← distance]
  unfold Counts remains Narrow
  rw [show queue.maxSeq sid = (numbersOf queue sid).getLast?.getD 0 by rw [← last]; rfl]
  change (numbersAfter queue sid cursor).getLast?.getD cursor = _ at ends
  cases greatest : (numbersOf queue sid).getLast? with
  | none =>
    have none_ : numbersOf queue sid = [] := List.getLast?_eq_none_iff.1 greatest
    have nothing : numbersAfter queue sid cursor = [] := by rw [numbersAfter, none_, List.filter_nil]
    rw [nothing, none_]
    simp only [Option.getD_none, List.length_nil, List.getLast?_nil, ne_eq, not_true_eq_false, or_false]
    unfold wrap64
    omega
  | some number =>
    have mem : number ∈ numbersOf queue sid := List.mem_of_getLast? greatest
    obtain ⟨d, held, rfl⟩ := List.mem_map.1 mem
    have positive := fitting.numbers d (List.mem_filter.1 held).1
    have below := stored.issued d (List.mem_filter.1 held).1
    have most := fitting.issued
    have some_ : numbersOf queue sid ≠ [] := List.ne_nil_of_mem mem
    have few : ((numbersAfter queue sid cursor).length : Int) ≤ d.seq := by
      have fewer : (numbersAfter queue sid cursor).length ≤ (numbersOf queue sid).length := List.length_filter_le _ _
      have upwards : (0 :: numbersOf queue sid).Pairwise (· < ·) := by
        refine List.pairwise_cons.2 ⟨fun other inNumbers => ?_, numbersOf_increasing stored sid⟩
        obtain ⟨row, inRows, rfl⟩ := List.mem_map.1 inNumbers
        have one := fitting.numbers row (List.mem_filter.1 inRows).1
        omega
      have spread := length_le_distance upwards
      rw [greatest, Option.getD_some] at spread
      omega
    rw [greatest, Option.getD_some] at ends
    rw [ends] at atLeast ⊢
    simp only [Option.getD_some, some_, ne_eq, not_false_eq_true, or_true, and_true]
    unfold wrap64
    omega

theorem above_start {queue : Queue} {sid : String} {cursor number : Int} (mem : number ∈ numbersAfter queue sid cursor) :
    cursor < number := of_decide_eq_true (List.mem_filter.1 mem).2

theorem narrow_number {queue : Queue} (stored : Stored policy queue) (fitting : Fitting queue) {sid : String}
    {number : Int} (mem : number ∈ numbersOf queue sid) : Narrow number := by
  obtain ⟨d, held, rfl⟩ := List.mem_map.1 mem
  have one := fitting.numbers d (List.mem_filter.1 held).1
  have below := stored.issued d (List.mem_filter.1 held).1
  have most := fitting.issued
  unfold Narrow
  omega

end Counts

section Pages

variable {policy : RetryPolicy}

/-- From the last number of a page on, as from the whole page's end. -/
theorem consecutive_page (numbers : List Int) (cursor : Int) {limit : Nat} (positive : 1 ≤ limit) :
    Consecutive ((numbers.take limit).getLast?.getD cursor :: numbers.drop limit) ↔
      Consecutive (numbers.drop (limit - 1)) := by
  by_cases short : numbers.length ≤ limit - 1
  · have nothing : numbers.drop limit = [] := List.drop_eq_nil_of_le (by omega)
    rw [nothing, List.drop_eq_nil_of_le short]
    exact iff_of_true (consecutive_single _) consecutive_nil
  · have within : limit - 1 < numbers.length := by omega
    have ends : (numbers.take limit).getLast? = some numbers[limit - 1] := by
      rw [List.getLast?_take, if_neg (by omega), List.getElem?_eq_getElem within, Option.some_or]
    rw [ends, Option.getD_some, List.drop_eq_getElem_cons within, Nat.sub_add_cancel positive]

theorem narrow_cursor {queue : Queue} (fitting : Fitting queue) {principal : Principal} {sid : String}
    {query : DeliveryQuery} {sub : Subscription} {cursor : Int}
    (planned : pullPlan queue principal sid query = .ok (sub, cursor)) : Narrow cursor := by
  obtain ⟨loaded, from_⟩ := pullPlan_ok planned
  have held : sub ∈ queue.subscriptions := List.mem_of_find?_eq_some (loadOwned_ok loaded).1
  unfold cursorOf at from_
  cases text : query.cursor.filter (fun text => text != "") with
  | none =>
    rw [text] at from_
    cases from_
    obtain ⟨low, high⟩ := fitting.cursors sub held
    unfold Narrow
    omega
  | some sent =>
    cases number : Library.Text.parseI64 sent with
    | none => simp [text, number] at from_
    | some value =>
      simp only [text, number, Except.ok.injEq] at from_
      rw [← from_]
      unfold Library.Text.parseI64 at number
      exact of_decide_eq_true (Option.filter_eq_some_iff.1 number).2

theorem seqs_page {queue : Queue} (stored : Stored policy queue) (sid : String) (cursor : Int) (limit : Nat) :
    (queue.deliveriesSince sid cursor limit).map Delivery.seq = (numbersAfter queue sid cursor).take limit := by
  rw [deliveriesSince_eq stored, List.map_take, numbersAfter_eq]

theorem pageEnd_eq {queue : Queue} (stored : Stored policy queue) (sid : String) (cursor : Int) (limit : Nat) :
    pageEnd (queue.deliveriesSince sid cursor limit) cursor =
      ((numbersAfter queue sid cursor).take limit).getLast?.getD cursor := by
  rw [pageEnd, ← List.getLast?_map, seqs_page stored]

/-- What follows a page is what the page leaves. -/
theorem numbersAfter_page {queue : Queue} (stored : Stored policy queue) (sid : String) (cursor : Int) {limit : Nat}
    (positive : 1 ≤ limit) :
    numbersAfter queue sid (((numbersAfter queue sid cursor).take limit).getLast?.getD cursor) =
      (numbersAfter queue sid cursor).drop limit := by
  cases last : ((numbersAfter queue sid cursor).take limit).getLast? with
  | none =>
    have empty : numbersAfter queue sid cursor = [] := by
      rcases List.take_eq_nil_iff.1 (List.getLast?_eq_none_iff.1 last) with zero | empty
      · omega
      · exact empty
    rw [Option.getD_none, empty, List.drop_nil]
  | some number =>
    have beyond := above_start (List.mem_of_mem_take (List.mem_of_getLast? last))
    have increasing : Increasing (fun seq : Int => seq) (numbersAfter queue sid cursor) := by
      rw [Increasing, List.map_id']
      exact (numbersOf_increasing stored sid).filter _
    rw [Option.getD_some, ← increasing.filter_after last, numbersAfter, numbersAfter, List.filter_filter]
    apply List.filter_congr
    intro other _
    rw [← Bool.decide_and]
    apply decide_eq_decide.2
    omega

theorem narrow_end {queue : Queue} (stored : Stored policy queue) (fitting : Fitting queue) {sid : String}
    {cursor : Int} (narrow : Narrow cursor) (limit : Nat) :
    Narrow (((numbersAfter queue sid cursor).take limit).getLast?.getD cursor) := by
  cases last : ((numbersAfter queue sid cursor).take limit).getLast? with
  | none => exact narrow
  | some number =>
    have mem := List.mem_of_mem_take (List.mem_of_getLast? last)
    exact narrow_number stored fitting (List.mem_filter.1 mem).1

/-- The page a pull gets counts what follows it exactly when no number from its last one on went elsewhere. -/
theorem pull_counts {queue : Queue} (stored : Stored policy queue) (fitting : Fitting queue) {now sid : String}
    {principal : Principal} {query : DeliveryQuery} {sub : Subscription} {cursor : Int}
    (planned : pullPlan queue principal sid query = .ok (sub, cursor)) :
    ∃ after page, Api.Subscriptions.deliveries queue now principal sid query = ⟨after, .ok page⟩ ∧
      (Counts after sid page.nextCursor page.remaining ↔
        Consecutive ((numbersAfter queue sid cursor).drop (pageLimit query.limit - 1)) ∧
          (0 ≤ cursor ∨ numbersOf queue sid ≠ [])) := by
  have here : sub.id = sid := find_id (loadOwned_ok (pullPlan_ok planned).1).1
  have positive := pageLimit_pos query.limit
  have from_ := narrow_cursor fitting planned
  unfold Api.Subscriptions.deliveries
  simp only [planned, here]
  refine ⟨_, _, rfl, ?_⟩
  have same : ∀ next remaining, Counts (if acks query then (queue.touchPolled sid now).ack sid now
      (pageEnd (queue.deliveriesSince sid cursor (pageLimit query.limit)) cursor) else queue.touchPolled sid now)
      sid next remaining ↔ Counts queue sid next remaining := by
    intro next remaining
    split <;> rfl
  rw [same, pageEnd_eq stored]
  refine (counts_iff stored fitting sid (narrow_end stored fitting from_ _)).trans ?_
  rw [numbersAfter_page stored sid cursor positive, consecutive_page _ _ positive]
  refine and_congr_right (fun _ => ?_)
  by_cases empty : numbersOf queue sid = []
  · rw [numbersAfter, empty, List.filter_nil, List.take_nil, List.getLast?_nil, Option.getD_none]
  · simp [empty]

/-- An acknowledgement counts what follows the cursor it reaches exactly when those numbers follow without a gap. -/
theorem ack_counts {queue : Queue} (stored : Stored policy queue) (fitting : Fitting queue) {now sid : String}
    {principal : Principal} {sub : Subscription} {cursor : Int} (narrow : Narrow cursor)
    (loaded : loadOwned queue principal sid = .ok sub) :
    ∃ after answer, Api.Subscriptions.ack queue now principal sid cursor = ⟨after, .ok answer⟩ ∧
      answer.cursor = max sub.cursorSeq cursor ∧
      (Counts after sid answer.cursor answer.remaining ↔
        Consecutive (max sub.cursorSeq cursor :: numbersAfter queue sid (max sub.cursorSeq cursor))) := by
  obtain ⟨found, _⟩ := loadOwned_ok loaded
  have here : sub.id = sid := find_id found
  have held : sub ∈ queue.subscriptions := List.mem_of_find?_eq_some found
  obtain ⟨low, high⟩ := fitting.cursors sub held
  have reached : (((queue.ack sid now cursor).find? sid).map Subscription.cursorSeq).getD cursor =
      max sub.cursorSeq cursor := by
    unfold Queue.find? at found ⊢
    rw [Queue.ack, Queue.updateSubscription, find_updateWhere, found]
    · simp [here]
    · exact fun _ => rfl
  unfold Api.Subscriptions.ack
  simp only [loaded, here, reached]
  refine ⟨_, _, rfl, rfl, ?_⟩
  have reachedNarrow : Narrow (max sub.cursorSeq cursor) := by
    unfold Narrow at narrow ⊢
    omega
  refine (counts_iff stored fitting sid reachedNarrow).trans (and_iff_left (Or.inl ?_))
  omega

end Pages

section Runs

variable {policy : RetryPolicy} {later : String → Nat → String}

/-- The request carries a 64-bit cursor. -/
def Typed (_ : Subscriptions.Desk) : Move → Prop
  | .acknowledge _ _ cursor => Narrow cursor
  | _ => True

instance (desk : Subscriptions.Desk) (move : Move) : Decidable (Typed desk move) :=
  match move with
  | .acknowledge _ _ cursor => inferInstanceAs (Decidable (Narrow cursor))
  | .subscribe .. | .enqueue .. | .collect .. | .attempt .. | .restart | .update .. | .poll .. | .delete _ => isTrue trivial

/-- Numbers are issued from one on, and a cursor starts at nought and only grows. -/
structure Natural (book : Subscriptions.Ledger) : Prop where
  issued : 0 ≤ book.issued
  slots : ∀ slot ∈ book.slots, 1 ≤ slot.seq
  cards : ∀ card ∈ book.cards, 0 ≤ card.cursor ∧ card.cursor ≤ 9223372036854775807

theorem post_natural {book : Subscriptions.Ledger} {entry : Subscriptions.Entry} (natural : Natural book)
    (fits : book.Fits entry) (typed : ∀ id cursor, entry = .acknowledged id cursor → Narrow cursor) : Natural (book.post entry) := by
  cases entry with
  | opened id inst =>
    exact ⟨natural.issued, natural.slots, forall_append natural.cards ⟨Int.le_refl 0, Int.natCast_nonneg _⟩⟩
  | issued sub seq =>
    have above := fits.1
    have start := natural.issued
    have one : 1 ≤ seq := by omega
    exact ⟨Int.le_trans Int.one_nonneg one, forall_append natural.slots one, natural.cards⟩
  | acknowledged id cursor =>
    obtain ⟨_, high⟩ := typed id cursor rfl
    refine ⟨natural.issued, natural.slots, forall_updateWhere natural.cards (fun card _ _ before => ?_)⟩
    obtain ⟨start, end_⟩ := before
    simp only [Card.reach]
    omega
  | closed id => exact ⟨natural.issued, forall_deleteWhere natural.slots, forall_deleteWhere natural.cards⟩

theorem step_natural {desk : Subscriptions.Desk} {move : Move} (natural : Natural (ledger desk.queue))
    (typed : Typed desk move) : Natural (ledger (step policy later desk move).queue) := by
  rw [step_ledger]
  cases written : entryOf desk.queue move with
  | none => exact natural
  | some entry =>
    refine post_natural natural (entry_fits written) (fun id cursor same => ?_)
    rw [same] at written
    obtain ⟨now, rfl⟩ := acknowledged_move written
    exact typed

theorem run_natural {events : List Move} (typed : Meets (step policy later) Typed {} events) :
    Natural (ledger (run (step policy later) {} events).queue) :=
  run_invariant (step policy later) (fun desk => Natural (ledger desk.queue))
    ⟨Int.le_refl 0, by simp [ledger], by simp [ledger]⟩
    (fun _ _ natural typed => step_natural natural typed) typed

theorem fitting_of_natural {queue : Queue} (natural : Natural (ledger queue))
    (room : queue.issued ≤ 9223372036854775807) : Fitting queue where
  issued := room
  numbers d held := natural.slots (slotOf d) (List.mem_map_of_mem held)
  cursors sub held := natural.cards (cardOf sub) (List.mem_map_of_mem held)

/-- After any moves of the queue, over any number of subscriptions. -/
theorem remaining_counts_iff (policy : RetryPolicy) (later : String → Nat → String) (events : List Move)
    (typed : Meets (step policy later) Typed {} events) (now sid : String) (principal : Principal)
    (room : (run (step policy later) {} events).queue.issued ≤ 9223372036854775807) :
    (∀ query sub cursor, pullPlan (run (step policy later) {} events).queue principal sid query = .ok (sub, cursor) →
      ∃ after page, Api.Subscriptions.deliveries (run (step policy later) {} events).queue now principal sid query =
          ⟨after, .ok page⟩ ∧
        (Counts after sid page.nextCursor page.remaining ↔
          Consecutive ((numbersAfter (run (step policy later) {} events).queue sid cursor).drop
            (pageLimit query.limit - 1)) ∧
            (0 ≤ cursor ∨ numbersOf (run (step policy later) {} events).queue sid ≠ []))) ∧
    ∀ sub cursor, Narrow cursor → loadOwned (run (step policy later) {} events).queue principal sid = .ok sub →
      ∃ after answer, Api.Subscriptions.ack (run (step policy later) {} events).queue now principal sid cursor =
          ⟨after, .ok answer⟩ ∧
        (Counts after sid answer.cursor answer.remaining ↔
          Consecutive (max sub.cursorSeq cursor ::
            numbersAfter (run (step policy later) {} events).queue sid (max sub.cursorSeq cursor))) := by
  have stored := (run_sound policy later (sound_empty policy) events).stored
  have fitting := fitting_of_natural (run_natural typed) room
  constructor
  · intro query sub cursor planned
    exact pull_counts stored fitting planned
  · intro sub cursor narrow loaded
    obtain ⟨after, answer, replied, _, counted⟩ := @ack_counts _ _ stored fitting now _ _ _ _ narrow loaded
    exact ⟨after, answer, replied, counted⟩

end Runs

section Specimen

open Specimen

/-- The deployment the subscriptions belong to. -/
def keeper : Principal := { Principal.anonymous with instanceIri := some "ia" }

def watch : NewSubscription := ⟨"ia", none, {}, none, none, none⟩

def watched (id : String) : Move := .subscribe id "2026-01-01" watch

def queues (id sub artifact : String) : Move := .enqueue 0 id "2026-01-01" ⟨sub, artifact, none, "produced", .null⟩

/-- The matches of one subscription after another. -/
def successive : List Move := [watched "s", queues "1" "s" "a", queues "2" "s" "b"]

/-- One match of another subscription between two of the first. -/
def interspersed : List Move :=
  [watched "s", watched "t", queues "1" "s" "a", queues "2" "t" "a", queues "3" "s" "b"]

theorem successive_counts :
    ∃ after page, Api.Subscriptions.deliveries (run (step {} (fun now _ => now)) {} successive).queue "2026-01-02" keeper "s"
        { limit := some "1" } = ⟨after, .ok page⟩ ∧ Counts after "s" page.nextCursor page.remaining := by
  obtain ⟨after, page, replied, counted⟩ :=
    (remaining_counts_iff {} (fun now _ => now) successive (by decide) "2026-01-02" "s" keeper (by decide)).1
      { limit := some "1" } { fresh "s" "2026-01-01" watch with lastMatchAt := some "2026-01-01" } 0 rfl
  exact ⟨after, page, replied, counted.2 (by decide)⟩

theorem interspersed_overcounted :
    (Api.Subscriptions.deliveries (run (step {} (fun now _ => now)) {} interspersed).queue "2026-01-02" keeper "s"
        { limit := some "1" }).response.toOption.map (fun page => (page.nextCursor, page.remaining)) = some (1, 2) ∧
      numbersAfter (Api.Subscriptions.deliveries (run (step {} (fun now _ => now)) {} interspersed).queue "2026-01-02"
        keeper "s" { limit := some "1" }).queue "s" 1 = [3] ∧
      ¬Counts (Api.Subscriptions.deliveries (run (step {} (fun now _ => now)) {} interspersed).queue "2026-01-02" keeper "s"
        { limit := some "1" }).queue "s" 1 2 := by
  decide

end Specimen

end ToolArtifactRegistry.Laws
