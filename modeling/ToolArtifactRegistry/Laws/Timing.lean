import ToolArtifactRegistry.Delivering
import ToolArtifactRegistry.Federation.Claims
import ToolArtifactRegistry.Library.Instants
import ToolArtifactRegistry.Resolving
import ToolArtifactRegistry.Subscriptions

/-! Times are stored as texts, and a query that compares the texts finds the rows whose time has come. -/
namespace ToolArtifactRegistry.Laws.Timing

open Library.Text Library.Instants Subscriptions

/-- The text of an instant of a year with four digits. -/
def Spells (text : String) (i : Instant) : Prop := i.year ≤ 9999 ∧ text = i.text

/-- A column that holds nothing but such texts. -/
def Timed (column : Option String) : Prop := ∀ text ∈ column, ∃ i, Spells text i

/-- The time of a column has come; no time has always come. -/
def Come (now : Instant) (column : Option String) : Prop := ∀ text ∈ column, ∃ i, Spells text i ∧ i.upTo now

/-- The time of one column is not after the time of another. -/
def NotAfter (left right : Option String) : Prop :=
  ∀ first ∈ left, ∃ second ∈ right, ∃ i j, Spells first i ∧ Spells second j ∧ i.upTo j

/-- What a query with a limit chooses from a table: rows that are due, and all of them unless as many as the limit
are due no later than the one left out. -/
def Selects {Row : Type} (limit : Nat) (due : Row → Prop) (notAfter : Row → Row → Prop) (table chosen : List Row) : Prop :=
  (∀ row ∈ chosen, row ∈ table ∧ due row) ∧
    ∀ row ∈ table, due row → row ∈ chosen ∨ chosen.length = limit ∧ ∀ other ∈ chosen, notAfter other row

/-- A delivery that may be attempted, whatever the time. -/
def Sendable (row : Delivery × Subscription) : Prop :=
  (row.1.status = .pending ∨ row.1.status = .failed) ∧ row.2.enabled = true ∧ row.2.deliveryState = .active ∧
    row.2.webhookUrl.isSome = true

section Columns

variable {now : Instant}

theorem le_spelled {left right : String} {i j : Instant} (first : Spells left i) (second : Spells right j) :
    le left right = true ↔ i.upTo j := by
  rw [first.2, second.2, le_text first.1 second.1, decide_eq_true_eq]

theorem come_iff {column : Option String} (timed : Timed column) (year : now.year ≤ 9999) :
    column.all (fun text => le text now.text) = true ↔ Come now column := by
  have present : Spells now.text now := ⟨year, rfl⟩
  rw [Option.all_eq_true]
  constructor
  · intro before text held
    obtain ⟨i, spelled⟩ := timed text held
    exact ⟨i, spelled, (le_spelled spelled present).1 (before text held)⟩
  · intro come text held
    obtain ⟨i, spelled, upTo⟩ := come text held
    exact (le_spelled spelled present).2 upTo

theorem notAfter_of {left right : Option String} (first : Timed left) (second : Timed right)
    (before : ∀ l ∈ left, ∃ r ∈ right, le l r = true) : NotAfter left right := by
  intro l held
  obtain ⟨i, one⟩ := first l held
  obtain ⟨r, there, atMost⟩ := before l held
  obtain ⟨j, other⟩ := second r there
  exact ⟨r, there, i, j, one, other, (le_spelled one other).1 atMost⟩

end Columns

section Selection

variable {Row : Type} {limit : Nat} {table chosen : List Row}

/-- The first rows in order of those that pass a check. -/
theorem selects_sorted (order : Row → Row → Prop) [DecidableRel order] [Std.Total order] [IsTrans Row order]
    (check : Row → Bool) (limit : Nat) (table : List Row) : Selects limit (fun row => check row = true) order table
      (((table.filter check).insertionSort order).take limit) := by
  have held (row : Row) : row ∈ (table.filter check).insertionSort order ↔ row ∈ table ∧ check row = true := by
    rw [(List.perm_insertionSort order _).mem_iff, List.mem_filter]
  have sorted := List.pairwise_insertionSort order (table.filter check)
  generalize (table.filter check).insertionSort order = rows at held sorted
  constructor
  · intro row mem
    exact (held row).1 (List.mem_of_mem_take mem)
  · intro row mem due
    have split := List.take_append_drop limit rows
    have within := (held row).2 ⟨mem, due⟩
    rw [← split, List.mem_append] at within
    rcases within with taken | left
    · exact Or.inl taken
    · have more : limit < rows.length := by
        have := List.length_pos_of_mem left
        rw [List.length_drop] at this
        omega
      rw [← split, List.pairwise_append] at sorted
      exact Or.inr ⟨by rw [List.length_take]; omega, fun other first => sorted.2.2 other first row left⟩

theorem Selects.imp {due check : Row → Prop} {order notAfter : Row → Row → Prop} (selects : Selects limit check order table chosen)
    (same : ∀ row ∈ table, check row ↔ due row) (weaker : ∀ one ∈ table, ∀ other ∈ table, order one other → notAfter one other) :
    Selects limit due notAfter table chosen := by
  constructor
  · intro row mem
    obtain ⟨held, checked⟩ := selects.1 row mem
    exact ⟨held, (same row held).1 checked⟩
  · intro row mem due
    rcases selects.2 row mem ((same row mem).2 due) with taken | ⟨full, before⟩
    · exact Or.inl taken
    · exact Or.inr ⟨full, fun other first => weaker other (selects.1 other first).1 row mem (before other first)⟩

end Selection

section Orders

instance : Std.Total (fun left right : Resolving.Entry => Resolving.dueBefore left right = true) where
  total left right := by
    unfold Resolving.dueBefore
    cases left.nextAttemptAt with
    | none => exact Or.inl rfl
    | some first =>
      cases right.nextAttemptAt with
      | none => exact Or.inr rfl
      | some second => exact charsLe_total _ _

instance : IsTrans Resolving.Entry (fun left right => Resolving.dueBefore left right = true) where
  trans left middle right := by
    unfold Resolving.dueBefore
    intro before after
    cases first : left.nextAttemptAt with
    | none => rfl
    | some l =>
      cases second : middle.nextAttemptAt with
      | none =>
        rw [first, second] at before
        cases before
      | some m =>
        cases third : right.nextAttemptAt with
        | none =>
          rw [second, third] at after
          cases after
        | some r =>
          rw [first, second] at before
          rw [second, third] at after
          exact charsLe_trans before after

theorem resolves_notAfter {left right : Resolving.Entry} (first : Timed left.nextAttemptAt) (second : Timed right.nextAttemptAt)
    (before : Resolving.dueBefore left right = true) : NotAfter left.nextAttemptAt right.nextAttemptAt := by
  unfold Resolving.dueBefore at before
  apply notAfter_of first second
  intro l held
  rw [Option.mem_def.1 held] at before
  cases there : right.nextAttemptAt with
  | none =>
    rw [there] at before
    cases before
  | some r =>
    rw [there] at before
    exact ⟨r, rfl, before⟩

/-- Where the times are the same the sequence numbers decide. -/
theorem dueBefore_iff {left right : Delivery × Subscription} : Queue.dueBefore left right = true ↔
    match left.1.nextAttemptAt, right.1.nextAttemptAt with
    | none, none => left.1.seq ≤ right.1.seq
    | none, some _ => True
    | some _, none => False
    | some l, some r => le l r = true ∧ (l = r → left.1.seq ≤ right.1.seq) := by
  unfold Queue.dueBefore
  cases left.1.nextAttemptAt with
  | none => cases right.1.nextAttemptAt <;> simp
  | some l =>
    cases right.1.nextAttemptAt with
    | none => simp
    | some r =>
      by_cases same : l = r
      · have itself : le r r = true := charsLe_refl _
        simp [same, itself]
      · simp [same]

instance : Std.Total (fun left right : Delivery × Subscription => Queue.dueBefore left right = true) where
  total left right := by
    rw [dueBefore_iff, dueBefore_iff]
    cases left.1.nextAttemptAt with
    | none =>
      cases right.1.nextAttemptAt with
      | none => exact Int.le_total _ _
      | some r => exact Or.inl trivial
    | some l =>
      cases right.1.nextAttemptAt with
      | none => exact Or.inr trivial
      | some r =>
        by_cases same : l = r
        · have itself : le r r = true := charsLe_refl _
          rcases Int.le_total left.1.seq right.1.seq with below | above
          · exact Or.inl ⟨same ▸ itself, fun _ => below⟩
          · exact Or.inr ⟨same ▸ itself, fun _ => above⟩
        · rcases charsLe_total l.toList r.toList with before | after
          · exact Or.inl ⟨before, fun equal => absurd equal same⟩
          · exact Or.inr ⟨after, fun equal => absurd equal.symm same⟩

instance : IsTrans (Delivery × Subscription) (fun left right => Queue.dueBefore left right = true) where
  trans left middle right := by
    rw [dueBefore_iff, dueBefore_iff, dueBefore_iff]
    intro before after
    cases first : left.1.nextAttemptAt with
    | none =>
      cases third : right.1.nextAttemptAt with
      | none =>
        cases second : middle.1.nextAttemptAt with
        | none =>
          rw [first, second] at before
          rw [second, third] at after
          exact Int.le_trans before after
        | some m =>
          rw [second, third] at after
          exact after.elim
      | some r => trivial
    | some l =>
      cases second : middle.1.nextAttemptAt with
      | none =>
        rw [first, second] at before
        exact before.elim
      | some m =>
        cases third : right.1.nextAttemptAt with
        | none =>
          rw [second, third] at after
          exact after.elim
        | some r =>
          rw [first, second] at before
          rw [second, third] at after
          refine ⟨charsLe_trans before.1 after.1, ?_⟩
          intro same
          have met : m = r := le_antisymm_text after.1 (same ▸ before.1)
          exact Int.le_trans (before.2 (same.trans met.symm)) (after.2 met)

theorem deliveries_notAfter {left right : Delivery × Subscription} (first : Timed left.1.nextAttemptAt)
    (second : Timed right.1.nextAttemptAt) (before : Queue.dueBefore left right = true) :
    NotAfter left.1.nextAttemptAt right.1.nextAttemptAt := by
  rw [dueBefore_iff] at before
  apply notAfter_of first second
  intro l held
  rw [Option.mem_def.1 held] at before
  cases there : right.1.nextAttemptAt with
  | none =>
    rw [there] at before
    exact before.elim
  | some r =>
    rw [there] at before
    exact ⟨r, rfl, before.1⟩

end Orders

section Queries

variable {now : Instant}

theorem resolves_select {queue : List Resolving.Entry} (timed : ∀ entry ∈ queue, Timed entry.nextAttemptAt)
    (year : now.year ≤ 9999) (limit : Nat) :
    ∃ chosen, Resolving.dueResolves now.text limit queue = chosen.map Resolving.Entry.iri ∧
      Selects limit (fun entry => Come now entry.nextAttemptAt)
        (fun one other => NotAfter one.nextAttemptAt other.nextAttemptAt) queue chosen := by
  refine ⟨_, rfl, (selects_sorted _ (Resolving.isDue now.text) limit queue).imp ?_ ?_⟩
  · intro entry mem
    exact come_iff (timed entry mem) year
  · intro one first other second before
    exact resolves_notAfter (timed one first) (timed other second) before

theorem isDue_iff {row : Delivery × Subscription} (timed : Timed row.1.nextAttemptAt) (year : now.year ≤ 9999) :
    Queue.isDue now.text row.1 row.2 = true ↔ Sendable row ∧ Come now row.1.nextAttemptAt := by
  rw [← come_iff timed year]
  unfold Queue.isDue Sendable
  simp only [Bool.and_eq_true, decide_eq_true_eq]
  constructor
  · rintro ⟨⟨⟨⟨open_, come⟩, enabled⟩, active⟩, url⟩
    exact ⟨⟨open_, enabled, active, url⟩, come⟩
  · rintro ⟨⟨open_, enabled, active, url⟩, come⟩
    exact ⟨⟨⟨⟨open_, come⟩, enabled⟩, active⟩, url⟩

theorem deliveries_select {queue : Queue} (timed : ∀ d ∈ queue.deliveries, Timed d.nextAttemptAt)
    (year : now.year ≤ 9999) (limit : Nat) :
    ∃ chosen, queue.dueDeliveries now.text limit = chosen.map (fun row => Queue.dueOf row.1 row.2) ∧
      Selects limit (fun row => Sendable row ∧ Come now row.1.nextAttemptAt)
        (fun one other => NotAfter one.1.nextAttemptAt other.1.nextAttemptAt) queue.joined chosen := by
  have within (row : Delivery × Subscription) (mem : row ∈ queue.joined) : Timed row.1.nextAttemptAt :=
    timed row.1 (mem_joined.1 mem).1
  refine ⟨_, rfl, (selects_sorted _ (fun row => Queue.isDue now.text row.1 row.2) limit queue.joined).imp ?_ ?_⟩
  · intro row mem
    exact isDue_iff (within row mem) year
  · intro one first other second before
    exact deliveries_notAfter (within one first) (within other second) before

/-- A sweep removes the rows whose expiry lies before now, and no others. -/
theorem sweep_expired {rows : List Federation.SeenQuery} (timed : ∀ row ∈ rows, Timed (some row.expiresAt))
    (year : now.year ≤ 9999) (row : Federation.SeenQuery) : row ∈ Federation.sweep now.text rows ↔
      row ∈ rows ∧ ∃ i, Spells row.expiresAt i ∧ now.upTo i := by
  rw [Federation.mem_sweep]
  constructor
  · rintro ⟨mem, left⟩
    obtain ⟨i, spelled⟩ := timed row mem row.expiresAt rfl
    exact ⟨mem, i, spelled, (le_spelled ⟨year, rfl⟩ spelled).1 left⟩
  · rintro ⟨mem, i, spelled, upTo⟩
    exact ⟨mem, (le_spelled ⟨year, rfl⟩ spelled).2 upTo⟩

/-- Every operation stores the texts of the instants it is given. -/
inductive Reached : List Resolving.Entry → Prop
  | empty : Reached []
  | queued {queue : List Resolving.Entry} (now : Instant) (iri : String) (peerId : Option String) (year : now.year ≤ 9999)
      (reached : Reached queue) : Reached (Resolving.queueResolve now.text iri peerId queue)
  | resolved {queue : List Resolving.Entry} (now next : Instant) (iri : String) (year : next.year ≤ 9999)
      (reached : Reached queue) : Reached (Resolving.markResolved now.text next.text iri queue)
  | failed {queue : List Resolving.Entry} (now : Instant) (later : Nat → Instant) (iri error : String)
      (years : ∀ seconds, (later seconds).year ≤ 9999) (reached : Reached queue) :
      Reached (Resolving.markResolveFailed now.text (fun seconds => (later seconds).text) iri error queue)

theorem timed_text {i : Instant} (year : i.year ≤ 9999) : Timed (some i.text) := by
  intro text held
  cases held
  exact ⟨i, year, rfl⟩

theorem timed_of_reached {queue : List Resolving.Entry} (reached : Reached queue) :
    ∀ entry ∈ queue, Timed entry.nextAttemptAt := by
  induction reached with
  | empty =>
    intro entry mem
    cases mem
  | queued now iri peerId year _ ih =>
    unfold Resolving.queueResolve
    split
    · exact ih
    · exact Library.Tables.forall_append ih (timed_text year)
  | resolved now next iri year _ ih => exact Library.Tables.forall_updateWhere ih (fun _ _ _ _ => timed_text year)
  | failed now later iri error years _ ih => exact Library.Tables.forall_updateWhere ih (fun _ _ _ _ => timed_text (years _))

end Queries

/-- Two texts are ordered as their instants are, so each query finds what is due. -/
theorem texts_keep_time {now : Instant} (year : now.year ≤ 9999) {resolves : List Resolving.Entry} (reached : Reached resolves)
    {queue : Queue} (queueTimed : ∀ d ∈ queue.deliveries, Timed d.nextAttemptAt) {seen : List Federation.SeenQuery}
    (seenTimed : ∀ row ∈ seen, Timed (some row.expiresAt)) (limit : Nat) :
    (∀ one other : Instant, one.year ≤ 9999 → other.year ≤ 9999 → (le one.text other.text = true ↔ one.upTo other)) ∧
    (∃ chosen, Resolving.dueResolves now.text limit resolves = chosen.map Resolving.Entry.iri ∧
      Selects limit (fun entry => Come now entry.nextAttemptAt)
        (fun one other => NotAfter one.nextAttemptAt other.nextAttemptAt) resolves chosen) ∧
    (∃ chosen, queue.dueDeliveries now.text limit = chosen.map (fun row => Queue.dueOf row.1 row.2) ∧
      Selects limit (fun row => Sendable row ∧ Come now row.1.nextAttemptAt)
        (fun one other => NotAfter one.1.nextAttemptAt other.1.nextAttemptAt) queue.joined chosen) ∧
    (∀ row, row ∈ Federation.sweep now.text seen ↔ row ∈ seen ∧ ∃ i, Spells row.expiresAt i ∧ now.upTo i) := by
  refine ⟨?_, resolves_select (timed_of_reached reached) year limit, deliveries_select queueTimed year limit,
    sweep_expired seenTimed year⟩
  intro one other first second
  exact le_spelled ⟨first, rfl⟩ ⟨second, rfl⟩

def noon : Instant := ⟨2026, 1, 1, 12, 0, 0, 0, by decide, by decide, by decide, by decide, by decide, by decide⟩

/-- Half a second later. -/
def past : Instant := ⟨2026, 1, 1, 12, 0, 0, 500000000, by decide, by decide, by decide, by decide, by decide, by decide⟩

def delivery : Delivery :=
  Queue.queued 1 "d" noon.text ⟨"s", "https://reg.example/artifact/a", none, "produced", .null⟩

def claim : Federation.SeenQuery := ⟨"q", noon.text, past.text, none, none, 0⟩

def waiting : List Resolving.Entry := Resolving.queueResolve noon.text "https://peer.example/artifact/1" none []

theorem noon_kept : (le noon.text past.text = true ↔ noon.upTo past) ∧
    (∃ chosen, Resolving.dueResolves past.text 10 waiting = chosen.map Resolving.Entry.iri ∧
      Selects 10 (fun entry => Come past entry.nextAttemptAt)
        (fun one other => NotAfter one.nextAttemptAt other.nextAttemptAt) waiting chosen) ∧
    (claim ∈ Federation.sweep past.text [claim] ↔ claim ∈ [claim] ∧ ∃ i, Spells claim.expiresAt i ∧ past.upTo i) := by
  have kept := @texts_keep_time past (by decide) waiting
    (.queued noon "https://peer.example/artifact/1" none (by decide) .empty) { deliveries := [delivery] } (by
      intro d mem
      rw [List.mem_singleton.1 mem]
      exact timed_text (i := noon) (by decide)) [claim] (by
      intro row mem
      rw [List.mem_singleton.1 mem]
      exact timed_text (i := past) (by decide)) 10
  exact ⟨kept.1 noon past (by decide) (by decide), kept.2.1, kept.2.2.2 claim⟩

end ToolArtifactRegistry.Laws.Timing

/-! The wait before a delivery is tried again: no count of attempts makes the computation overflow, and
what it computes doubles from one failure to the next until it meets the ceiling. -/
namespace ToolArtifactRegistry.Laws

open Library.Word Subscriptions

/-- How far the base is shifted after so many attempts. -/
def shiftOf (attempts : Int) : Nat := min (max attempts 1 - 1).toNat 20

theorem shiftOf_mono {fewer more : Int} (order : fewer ≤ more) : shiftOf fewer ≤ shiftOf more := by
  unfold shiftOf
  omega

theorem shiftOf_le (attempts : Int) : shiftOf attempts ≤ 20 := by
  unfold shiftOf
  omega

theorem pow_shiftOf (attempts : Int) : 1 ≤ 2 ^ shiftOf attempts ∧ 2 ^ shiftOf attempts ≤ 1048576 := by
  have most : 2 ^ shiftOf attempts ≤ 2 ^ 20 := Nat.pow_le_pow_right (by decide) (shiftOf_le attempts)
  have least : 0 < 2 ^ shiftOf attempts := Nat.pow_pos (by decide)
  omega

/-- The product stays below 3600 times a million, so 64 bits are enough. -/
theorem product_fits (policy : RetryPolicy) (attempts : Int) :
    1 ≤ policy.baseBackoffSecs * 2 ^ shiftOf attempts ∧
      policy.baseBackoffSecs * 2 ^ shiftOf attempts ≤ 3774873600 := by
  have factor := pow_shiftOf attempts
  have base := policy.base
  have low : 1 * 1 ≤ policy.baseBackoffSecs * 2 ^ shiftOf attempts := Nat.mul_le_mul base.1 factor.1
  have high : policy.baseBackoffSecs * 2 ^ shiftOf attempts ≤ 3600 * 1048576 := Nat.mul_le_mul base.2 factor.2
  omega

theorem failed_eq (attempts : I64) :
    (attempts.max_ (I64.ofNat 1 (by decide))).checkedSub (I64.ofNat 1 (by decide)) =
      some ⟨max attempts.val 1 - 1, by omega, by have := attempts.high; omega⟩ := by
  have range := attempts.high
  unfold I64.checkedSub
  simp only [I64.val_max, I64.val_ofNat]
  exact I64.checked_some (by omega) (by omega)

theorem shift_eq (attempts : I64) {failed : I64} (value : failed.val = max attempts.val 1 - 1) :
    min (failed.min_ (I64.ofNat 20 (by decide))).asU32 40 = shiftOf attempts.val := by
  have least : (failed.min_ (I64.ofNat 20 (by decide))).val = min (max attempts.val 1 - 1) 20 := by
    rw [I64.val_min, I64.val_ofNat, value]
    rfl
  rw [I64.asU32_of_small (by omega) (by omega), least]
  unfold shiftOf
  omega

theorem multiplied_eq (policy : RetryPolicy) (attempts : Int)
    (small : 2 ^ shiftOf attempts ≤ 9223372036854775807) :
    (policy.baseWord.saturatingMul (I64.ofNat (2 ^ shiftOf attempts) small)).val =
      (policy.baseBackoffSecs * 2 ^ shiftOf attempts : Nat) := by
  have product := product_fits policy attempts
  have exact_ : policy.baseWord.val * (I64.ofNat (2 ^ shiftOf attempts) small).val =
      (policy.baseBackoffSecs * 2 ^ shiftOf attempts : Nat) := (Int.natCast_mul _ _).symm
  rw [I64.val_saturatingMul (by omega) (by omega), exact_]

/-- What the machine computes is the exact number, for every count of attempts. -/
theorem backoffWord_eq (policy : RetryPolicy) (attempts : I64) :
    ∃ wait, policy.backoffWord attempts = some wait ∧
      wait.val = (min (policy.baseBackoffSecs * 2 ^ shiftOf attempts.val) policy.maxBackoffSecs : Nat) := by
  have factor := pow_shiftOf attempts.val
  have shifted := @I64.one_checkedShl (shiftOf attempts.val) (by omega)
  refine ⟨(policy.baseWord.saturatingMul (I64.ofNat (2 ^ shiftOf attempts.val) (by omega))).min_ policy.maxWord,
    ?_, ?_⟩
  · unfold RetryPolicy.backoffWord
    rw [failed_eq]
    show ((I64.checkedShl _ _).bind _) = _
    rw [shift_eq attempts rfl, shifted]
    rfl
  · rw [I64.val_min, multiplied_eq]
    show min _ (policy.maxBackoffSecs : Int) = _
    omega

/-- The wait the worker's queue is kept with is the one the machine computes. -/
theorem backoffWord_backoffSecs (policy : RetryPolicy) (attempts : I64) :
    ∃ wait, policy.backoffWord attempts = some wait ∧ wait.val = policy.backoffSecs attempts.val.toNat := by
  obtain ⟨wait, computed, value⟩ := backoffWord_eq policy attempts
  have shift : min (max attempts.val.toNat 1 - 1) 20 = shiftOf attempts.val := by
    unfold shiftOf
    omega
  exact ⟨wait, computed, by rw [value]; unfold RetryPolicy.backoffSecs; rw [shift]⟩

/-- For every policy within the clamped ranges: a wait always comes out, exactly and without overflow, between
a second and the ceiling; more attempts never wait less; and up to the twenty-first the wait doubles. -/
theorem backoff_well_behaved (policy : RetryPolicy) :
    (∀ attempts : I64, ∃ wait, policy.backoffWord attempts = some wait ∧
      wait.val = policy.backoffSecs attempts.val.toNat ∧ 1 ≤ wait.val ∧ wait.val ≤ policy.maxBackoffSecs) ∧
    (∀ fewer more : I64, fewer.val ≤ more.val → ∀ sooner later, policy.backoffWord fewer = some sooner →
      policy.backoffWord more = some later → sooner.val ≤ later.val) ∧
    (∀ attempts : I64, 1 ≤ attempts.val → attempts.val ≤ 21 → ∃ wait, policy.backoffWord attempts = some wait ∧
      wait.val = (min (policy.baseBackoffSecs * 2 ^ (attempts.val - 1).toNat) policy.maxBackoffSecs : Nat)) := by
  refine ⟨fun attempts => ?_, fun fewer more order sooner later first second => ?_, fun attempts low high => ?_⟩
  · obtain ⟨wait, computed, value⟩ := backoffWord_eq policy attempts
    obtain ⟨_, again, exact_⟩ := backoffWord_backoffSecs policy attempts
    have same := Option.some.inj (computed.symm.trans again)
    have product := product_fits policy attempts.val
    have ceiling := policy.ceiling
    exact ⟨wait, computed, by rw [same]; exact exact_, by omega, by omega⟩
  · obtain ⟨_, computed, value⟩ := backoffWord_eq policy fewer
    obtain ⟨_, computed', value'⟩ := backoffWord_eq policy more
    have steeper : 2 ^ shiftOf fewer.val ≤ 2 ^ shiftOf more.val :=
      Nat.pow_le_pow_right (by decide) (shiftOf_mono order)
    have grows := Nat.mul_le_mul_left policy.baseBackoffSecs steeper
    rw [Option.some.inj (first.symm.trans computed), Option.some.inj (second.symm.trans computed'), value, value']
    omega
  · obtain ⟨wait, computed, value⟩ := backoffWord_eq policy attempts
    have shift : shiftOf attempts.val = (attempts.val - 1).toNat := by
      unfold shiftOf
      omega
    exact ⟨wait, computed, by rw [value, shift]⟩

end ToolArtifactRegistry.Laws
