import ToolArtifactRegistry.Laws.Timing
import ToolArtifactRegistry.Library.Turns

/-! The loops that work a queue off in batches, among the requests that change it: the one that fetches foreign records, and
the one that posts matches. What is due has its turn once the batches have had room for what is no later, whatever is due
besides; and what was fetched rests for as long as it was told to. -/
namespace ToolArtifactRegistry.Laws.Rotating

open Library.Tables Library.Text Library.Runs Resolving

/-- The event fetches this IRI. -/
def Fetches (iri : String) (resolver : Resolver) : Event → Prop
  | .asked _ asked _ _ => asked = iri
  | .worked _ _ _ => resolver.batch.head? = some iri
  | _ => False

instance (iri : String) (resolver : Resolver) : (event : Event) → Decidable (Fetches iri resolver event)
  | .asked _ asked _ _ => inferInstanceAs (Decidable (asked = iri))
  | .worked _ _ _ => inferInstanceAs (Decidable (resolver.batch.head? = some iri))
  | .cited _ _ => isFalse (fun fetches => fetches)
  | .tick _ => isFalse (fun fetches => fetches)

/-- When a fetch is repeated. -/
def until_ : Resolving.Fetch → Option String
  | .kept next => some next
  | .failed attempts later _ => some (later (backoffSecs attempts))
  | .unwritten => none

/-- The event puts nothing off to a time that is not after this one, and the loop records what comes of its fetches. -/
def After (time : String) : Event → Prop
  | .cited now _ => le now time = false
  | .asked now _ _ fetch => le now time = false ∧ ∀ next ∈ until_ fetch, le next time = false
  | .tick now => le now time = false
  | .worked now _ fetch => le now time = false ∧ ∃ next, until_ fetch = some next ∧ le next time = false

section Records

variable {now iri : String} {peerId : Option String} {fetch : Resolving.Fetch} {queue : List Resolving.Entry}

theorem cited_keyed (keyed : Keyed Resolving.Entry.iri queue) :
    Keyed Resolving.Entry.iri (queueResolve now iri peerId queue) := by
  unfold queueResolve
  split
  · exact keyed
  · rename_i missing
    refine keyed.append (fun row mem same => missing ?_)
    exact List.any_eq_true.2 ⟨row, mem, beq_iff_eq.2 same⟩

theorem record_keyed (keyed : Keyed Resolving.Entry.iri queue) :
    Keyed Resolving.Entry.iri (fetch.record now iri peerId queue) := by
  cases fetch with
  | kept next => exact (cited_keyed keyed).updateWhere (fun _ => rfl)
  | failed attempts later error => exact keyed.updateWhere (fun _ => rfl)
  | unwritten => exact keyed

/-- Every row that was there is there, or is the row of the IRI. -/
theorem cited_mem {entry : Resolving.Entry} : entry ∈ queueResolve now iri peerId queue ↔
    entry ∈ queue ∨ (isTracked queue iri = false ∧ entry = pendingEntry now iri peerId) := by
  unfold queueResolve
  split
  · rename_i tracked
    simp [tracked]
  · rename_i missing
    simp [missing]

/-- The row of another IRI is left as it is. -/
theorem record_other {entry : Resolving.Entry} (other : entry.iri ≠ iri) :
    entry ∈ fetch.record now iri peerId queue ↔ entry ∈ queue := by
  have cited (table : List Resolving.Entry) : entry ∈ queueResolve now iri peerId table ↔ entry ∈ table := by
    rw [cited_mem, or_iff_left]
    rintro ⟨_, rfl⟩
    exact other rfl
  have changed (change : Resolving.Entry → Resolving.Entry) (keeps : ∀ row, (change row).iri = row.iri)
      (table : List Resolving.Entry) :
      entry ∈ updateWhere (fun row => row.iri == iri) change table ↔ entry ∈ table := by
    rw [mem_updateWhere]
    constructor
    · rintro ⟨old, held, same⟩
      by_cases here : (old.iri == iri) = true
      · rw [if_pos here] at same
        rw [same, keeps] at other
        exact absurd (beq_iff_eq.1 here) other
      · rw [same, if_neg here]
        exact held
    · intro held
      exact ⟨entry, held, by rw [if_neg (by simpa using other)]⟩
  cases fetch with
  | kept next => exact (changed (success now next) (fun _ => rfl) _).trans (cited queue)
  | failed attempts later error =>
    exact changed (Resolving.failure attempts now (later (backoffSecs attempts)) error) (fun _ => rfl) queue
  | unwritten => exact Iff.rfl

theorem record_tracked {known : String} (tracked : known ∈ queue.map Resolving.Entry.iri) :
    known ∈ (fetch.record now iri peerId queue).map Resolving.Entry.iri := by
  have column (change : Resolving.Entry → Resolving.Entry) (keeps : ∀ row, (change row).iri = row.iri)
      (table : List Resolving.Entry) :
      (updateWhere (fun row => row.iri == iri) change table).map Resolving.Entry.iri = table.map Resolving.Entry.iri :=
    map_updateWhere table keeps
  cases fetch with
  | kept next =>
    rw [Resolving.Fetch.record, markResolved, column (success now next) (fun _ => rfl)]
    obtain ⟨entry, held, named⟩ := List.mem_map.1 tracked
    exact List.mem_map.2 ⟨entry, cited_mem.2 (Or.inl held), named⟩
  | failed attempts later error =>
    rw [Resolving.Fetch.record, column (Resolving.failure attempts now (later (backoffSecs attempts)) error) (fun _ => rfl)]
    exact tracked
  | unwritten => exact tracked

/-- And the row of the IRI says when it is fetched again. -/
theorem record_until {next : String} (told : until_ fetch = some next) :
    ∀ entry ∈ fetch.record now iri peerId queue, entry.iri = iri → entry.nextAttemptAt = some next := by
  have changed {change : Resolving.Entry → Resolving.Entry} {table : List Resolving.Entry}
      (set : ∀ row, (change row).nextAttemptAt = some next) :
      ∀ entry ∈ updateWhere (fun row => row.iri == iri) change table, entry.iri = iri → entry.nextAttemptAt = some next := by
    intro entry mem same
    obtain ⟨old, _, rfl⟩ := mem_updateWhere.1 mem
    by_cases here : (old.iri == iri) = true
    · rw [if_pos here]
      exact set old
    · rw [if_neg here] at same
      exact absurd (beq_iff_eq.2 same) here
  cases fetch with
  | kept until_ => exact changed (fun _ => told)
  | failed attempts later error => exact changed (fun _ => told)
  | unwritten => cases told

end Records

section Turns

variable {resolver : Resolver} {event : Event} {iri time : String}

/-- Its next fetch is set to this time. -/
def Scheduled (iri time : String) (queue : List Resolving.Entry) : Prop :=
  ∃ entry ∈ queue, entry.iri = iri ∧ entry.nextAttemptAt = some time

/-- The other IRIs that are no later, and not in the batch already. -/
def ahead (iri time : String) (resolver : Resolver) : Finset String :=
  (((resolver.queue.filter (isDue time)).map Resolving.Entry.iri).toFinset.erase iri) \ resolver.batch.toFinset

theorem mem_ahead {other : String} : other ∈ ahead iri time resolver ↔
    (other ≠ iri ∧ ∃ entry ∈ resolver.queue, isDue time entry = true ∧ entry.iri = other) ∧ other ∉ resolver.batch := by
  simp [ahead, and_assoc]

theorem not_due {entry : Resolving.Entry} {next : String} (set : entry.nextAttemptAt = some next)
    (late : le next time = false) :
    isDue time entry = false := by
  simp [isDue, set, late]

/-- A fetch of something else leaves what is set, and puts nothing ahead of it. -/
theorem record_turn {now asked : String} {peerId : Option String} {fetch : Resolving.Fetch}
    {queue : List Resolving.Entry} (other : asked ≠ iri)
    (set : Scheduled iri time queue) : Scheduled iri time (fetch.record now asked peerId queue) := by
  obtain ⟨entry, held, named, next⟩ := set
  exact ⟨entry, (record_other (by rw [named]; exact other.symm)).2 held, named, next⟩

theorem record_due {now asked : String} {peerId : Option String} {fetch : Resolving.Fetch}
    {queue : List Resolving.Entry} {entry : Resolving.Entry}
    (late : ∀ next ∈ until_ fetch, le next time = false) (held : entry ∈ fetch.record now asked peerId queue)
    (due : isDue time entry = true) : entry ∈ queue ∧ (entry.iri = asked → until_ fetch = none) := by
  by_cases same : entry.iri = asked
  · cases told : until_ fetch with
    | some next =>
      rw [not_due (record_until told entry held same) (late next told)] at due
      cases due
    | none =>
      cases fetch with
      | unwritten => exact ⟨held, fun _ => rfl⟩
      | kept next => cases told
      | failed attempts later error => cases told
  · exact ⟨(record_other same).1 held, fun equal => absurd equal same⟩

theorem due_nodup (now : String) (limit : Nat) {queue : List Resolving.Entry} (keyed : Keyed Resolving.Entry.iri queue) :
    (dueResolves now limit queue).Nodup := by
  have sorted : ((queue.filter (isDue now)).insertionSort (fun left right => dueBefore left right = true)).Perm
      (queue.filter (isDue now)) := List.perm_insertionSort _ _
  have distinct : ((queue.filter (isDue now)).map Resolving.Entry.iri).Nodup := keyed.sublist (List.filter_sublist.map _)
  exact ((sorted.map Resolving.Entry.iri).nodup_iff.2 distinct).sublist ((List.take_sublist _ _).map _)

/-- The loop collects the IRI, or a whole batch that is no later. -/
theorem collected {now : String} (set : Scheduled iri time resolver.queue) (come : le time now = true) :
    iri ∈ dueResolves now batchSize resolver.queue ∨
      (dueResolves now batchSize resolver.queue).length = batchSize ∧
        ∀ other ∈ dueResolves now batchSize resolver.queue,
          ∃ entry ∈ resolver.queue, isDue time entry = true ∧ entry.iri = other := by
  obtain ⟨entry, held, named, next⟩ := set
  have due : isDue now entry = true := by simp [isDue, next, come]
  have selects := Timing.selects_sorted (fun left right => dueBefore left right = true) (isDue now) batchSize resolver.queue
  unfold dueResolves
  rcases selects.2 entry held due with chosen | ⟨full, before⟩
  · exact Or.inl (List.mem_map.2 ⟨entry, chosen, named⟩)
  · refine Or.inr ⟨(List.length_map _).trans full, fun other mem => ?_⟩
    obtain ⟨row, chosen, rfl⟩ := List.mem_map.1 mem
    refine ⟨row, (selects.1 row chosen).1, ?_, rfl⟩
    have earlier : dueBefore row entry = true := before row chosen
    unfold dueBefore at earlier
    rw [next] at earlier
    unfold isDue
    cases first : row.nextAttemptAt with
    | none => rfl
    | some first =>
      rw [first] at earlier
      simpa using earlier

/-- A batch is collected when the last one is worked off. -/
def collects (resolver : Resolver) : Event → Bool
  | .tick _ => resolver.batch.isEmpty
  | _ => false

theorem step_keyed (keyed : Keyed Resolving.Entry.iri resolver.queue) :
    Keyed Resolving.Entry.iri (step resolver event).queue := by
  cases event with
  | cited now asked => exact cited_keyed keyed
  | asked now asked peerId fetch => exact record_keyed keyed
  | tick now =>
    simp only [step]
    split <;> exact keyed
  | worked now peerId fetch =>
    simp only [step]
    split
    · exact keyed
    · exact record_keyed keyed

theorem step_scheduled (other : ¬Fetches iri resolver event) (set : Scheduled iri time resolver.queue) :
    Scheduled iri time (step resolver event).queue := by
  cases event with
  | cited now asked =>
    obtain ⟨entry, held, rest⟩ := set
    exact ⟨entry, cited_mem.2 (Or.inl held), rest⟩
  | asked now asked peerId fetch => exact record_turn other set
  | tick now =>
    simp only [step]
    split <;> exact set
  | worked now peerId fetch =>
    simp only [step]
    unfold Fetches at other
    cases batch : resolver.batch with
    | nil => exact set
    | cons first rest =>
      rw [batch] at other
      exact record_turn (fun same => other (by rw [same]; rfl)) set

/-- What the loop has before it stays there, but for what it fetches. -/
theorem step_batch (waits : iri ∈ resolver.batch) (other : ¬Fetches iri resolver event) :
    iri ∈ (step resolver event).batch := by
  cases event with
  | cited now asked => exact waits
  | asked now asked peerId fetch => exact waits
  | tick now =>
    simp only [step]
    rw [if_neg (List.ne_nil_of_mem waits)]
    exact waits
  | worked now peerId fetch =>
    simp only [step]
    unfold Fetches at other
    cases batch : resolver.batch with
    | nil =>
      rw [batch] at waits
      cases waits
    | cons first rest =>
      rw [batch] at waits other
      exact (List.mem_cons.1 waits).resolve_left (fun same => other (by rw [same]; rfl))

/-- Nothing gets ahead. -/
theorem step_ahead (after : After time event) (busy : collects resolver event = false) :
    ahead iri time (step resolver event) ⊆ ahead iri time resolver := by
  intro other mem
  obtain ⟨⟨apart, entry, held, due, named⟩, outside⟩ := mem_ahead.1 mem
  refine mem_ahead.2 ?_
  cases event with
  | cited now asked =>
    rcases cited_mem.1 held with old | ⟨_, rfl⟩
    · exact ⟨⟨apart, entry, old, due, named⟩, outside⟩
    · rw [not_due rfl after] at due
      cases due
  | asked now asked peerId fetch => exact ⟨⟨apart, entry, (record_due after.2 held due).1, due, named⟩, outside⟩
  | tick now =>
    have waiting : resolver.batch ≠ [] := fun none_ => by simp [collects, none_] at busy
    simp only [step] at held outside
    rw [if_neg waiting] at held outside
    exact ⟨⟨apart, entry, held, due, named⟩, outside⟩
  | worked now peerId fetch =>
    obtain ⟨_, next, told, late⟩ := after
    simp only [step] at held outside
    cases batch : resolver.batch with
    | nil =>
      rw [batch] at held
      exact ⟨⟨apart, entry, held, due, named⟩, List.not_mem_nil⟩
    | cons first rest =>
      rw [batch] at held outside
      have kept := record_due (fun time mem => by rw [told] at mem; cases mem; exact late) held due
      refine ⟨⟨apart, entry, kept.1, due, named⟩, fun mem => ?_⟩
      rcases List.mem_cons.1 mem with same | later
      · have unwritten := kept.2 (named.trans same)
        rw [told] at unwritten
        cases unwritten
      · exact outside later

/-- A batch without the IRI takes its number of those ahead. -/
theorem collects_ahead (keyed : Keyed Resolving.Entry.iri resolver.queue) (set : Scheduled iri time resolver.queue)
    (after : After time event) (collecting : collects resolver event = true) : iri ∈ (step resolver event).batch ∨
      (ahead iri time (step resolver event)).card + batchSize ≤ (ahead iri time resolver).card := by
  cases event with
  | tick now =>
    have idle : resolver.batch = [] := List.isEmpty_iff.1 collecting
    have come : le time now = true := (charsLe_total time.toList now.toList).resolve_right (fun before => by
      rw [After, le] at after
      rw [after] at before
      cases before)
    have taken : step resolver (.tick now) = { resolver with batch := dueResolves now batchSize resolver.queue } :=
      if_pos idle
    rw [taken]
    rcases collected set come with mine | ⟨full, before⟩
    · exact Or.inl mine
    · by_cases mine : iri ∈ dueResolves now batchSize resolver.queue
      · exact Or.inl mine
      · right
        have within : ∀ other ∈ dueResolves now batchSize resolver.queue, other ∈ ahead iri time resolver := by
          intro other collected
          refine mem_ahead.2 ⟨⟨?_, before other collected⟩, by simp [idle]⟩
          rintro rfl
          exact mine collected
        have left : ahead iri time { resolver with batch := dueResolves now batchSize resolver.queue } =
            ahead iri time resolver \ (dueResolves now batchSize resolver.queue).toFinset := by
          unfold ahead
          rw [idle, List.toFinset_nil, Finset.sdiff_empty]
        have counted := card_taken (due_nodup now batchSize keyed) within
        rw [full] at counted
        rw [left, counted]
  | cited now asked => cases collecting
  | asked now asked peerId fetch => cases collecting
  | worked now peerId fetch => cases collecting

end Turns

section Runs

variable {iri time : String}

def batches : Resolver → List Event → Nat
  | _, [] => 0
  | resolver, event :: rest => (if collects resolver event then 1 else 0) + batches (step resolver event) rest

/-- The IRI is fetched at some point of the run. -/
def FetchedIn (iri : String) (start : Resolver) (events : List Event) : Prop :=
  ∃ before event rest, events = before ++ event :: rest ∧ Fetches iri (run step start before) event

theorem total_batches (start : Resolver) (events : List Event) :
    total step (fun resolver event => if collects resolver event then batchSize else 0) start events =
      batchSize * batches start events := by
  induction events generalizing start with
  | nil => rfl
  | cons event rest ih =>
    rw [total, batches, ih, Nat.mul_add]
    split <;> simp

/-- What is due, and the loop. -/
def place (iri time : String) : Turn Resolver Event where
  waits resolver := Keyed Resolving.Entry.iri resolver.queue ∧ Scheduled iri time resolver.queue
  taken resolver := iri ∈ resolver.batch
  serves := Fetches iri
  ahead resolver := (ahead iri time resolver).card
  room resolver event := if collects resolver event then batchSize else 0

theorem place_advances : (place iri time).Advances step (fun _ event => After time event) where
  waits _ _ _ other waits := ⟨step_keyed waits.1, step_scheduled other waits.2⟩
  taken _ _ _ other taken := step_batch taken other
  nearer resolver event after waits := by
    unfold place
    dsimp only
    cases collecting : collects resolver event with
    | false => exact Or.inr (Finset.card_le_card (step_ahead after collecting))
    | true => exact collects_ahead waits.1 waits.2 after collecting

/-- One row for an IRI, and one place in a batch, which is of IRIs that have a row. -/
structure Sound (resolver : Resolver) : Prop where
  keyed : Keyed Resolving.Entry.iri resolver.queue
  once : resolver.batch.Nodup
  tracked : ∀ iri ∈ resolver.batch, iri ∈ resolver.queue.map Resolving.Entry.iri

theorem step_sound {resolver : Resolver} {event : Event} (sound : Sound resolver) : Sound (step resolver event) := by
  refine ⟨step_keyed sound.keyed, ?_, ?_⟩
  · cases event with
    | cited now asked => exact sound.once
    | asked now asked peerId fetch => exact sound.once
    | tick now =>
      simp only [step]
      split
      · exact due_nodup now batchSize sound.keyed
      · exact sound.once
    | worked now peerId fetch =>
      have once := sound.once
      simp only [step]
      cases batch : resolver.batch with
      | nil =>
        rw [batch] at once
        simp [batch]
      | cons first rest =>
        rw [batch] at once
        exact once.of_cons
  · intro iri mem
    cases event with
    | cited now asked =>
      obtain ⟨entry, held, named⟩ := List.mem_map.1 (sound.tracked iri mem)
      exact List.mem_map.2 ⟨entry, cited_mem.2 (Or.inl held), named⟩
    | asked now asked peerId fetch => exact record_tracked (sound.tracked iri mem)
    | tick now =>
      simp only [step] at mem ⊢
      split at mem
      · rename_i idle
        rw [if_pos idle]
        obtain ⟨entry, chosen, named⟩ := List.mem_map.1 mem
        have held := List.mem_filter.1 ((List.perm_insertionSort _ _).mem_iff.1 (List.mem_of_mem_take chosen))
        exact List.mem_map.2 ⟨entry, held.1, named⟩
      · rename_i busy
        rw [if_neg busy]
        exact sound.tracked iri mem
    | worked now peerId fetch =>
      have tracked := sound.tracked
      simp only [step] at mem ⊢
      cases batch : resolver.batch with
      | nil => simp [batch] at mem
      | cons first rest =>
        rw [batch] at mem tracked
        exact record_tracked (tracked iri (List.mem_cons_of_mem _ mem))

def Reachable (resolver : Resolver) : Prop := ∃ events, resolver = run step .empty events

theorem reachable_sound {resolver : Resolver} (reachable : Reachable resolver) : Sound resolver := by
  obtain ⟨events, rfl⟩ := reachable
  exact run_invariant step Sound ⟨List.nodup_nil, List.nodup_nil, by simp [Resolver.empty]⟩
    (fun _ _ sound _ => step_sound sound) (@meets_of_forall _ _ step (fun _ _ => True) _ _ (by simp))

/-- The loop collects nothing before its time. -/
theorem picked {resolver : Resolver} {events : List Event} (keyed : Keyed Resolving.Entry.iri resolver.queue)
    (set : Scheduled iri time resolver.queue) (outside : iri ∉ resolver.batch)
    (apart : Meets step (fun resolver event => ¬Fetches iri resolver event) resolver events)
    (again : iri ∈ (run step resolver events).batch) :
    ∃ before now after, events = before ++ .tick now :: after ∧ le time now = true := by
  induction events generalizing resolver with
  | nil => exact absurd again outside
  | cons event rest ih =>
    have here : ¬Fetches iri resolver event := apart.1
    by_cases waits : iri ∈ (step resolver event).batch
    · cases event with
      | cited now asked => exact absurd waits outside
      | asked now asked peerId fetch => exact absurd waits outside
      | tick now =>
        simp only [step] at waits
        split at waits
        · obtain ⟨entry, chosen, named⟩ := List.mem_map.1 waits
          obtain ⟨held, due⟩ := List.mem_filter.1 ((List.perm_insertionSort _ _).mem_iff.1 (List.mem_of_mem_take chosen))
          obtain ⟨other, there, same, next⟩ := set
          obtain rfl := keyed.eq held there (named.trans same.symm)
          rw [isDue, next] at due
          exact ⟨[], now, rest, rfl, by simpa using due⟩
        · exact absurd waits outside
      | worked now peerId fetch =>
        simp only [step] at waits
        split at waits
        · exact absurd waits outside
        · rename_i batch
          rw [batch] at outside
          exact absurd (List.mem_cons_of_mem _ waits) outside
    · obtain ⟨before, now, after, rfl, come⟩ := ih (step_keyed keyed) (step_scheduled here set) waits
        apart.2 again
      exact ⟨event :: before, now, after, rfl, come⟩

/-- What the loop has fetched rests: until a request fetches it, the loop does not take it again before the time it was put
off to, which after a failure is the longer the more there were. -/
theorem rests {start : Resolver} (reachable : Reachable start) {rest : List String} (first : start.batch = iri :: rest)
    {now next : String} {peerId : Option String} {fetch : Resolving.Fetch} (told : until_ fetch = some next)
    {events : List Event}
    (apart : Meets step (fun resolver event => ¬Fetches iri resolver event) (step start (.worked now peerId fetch)) events)
    (again : iri ∈ (run step start (.worked now peerId fetch :: events)).batch) :
    ∃ before tick after, events = before ++ .tick tick :: after ∧ le next tick = true := by
  have sound := reachable_sound reachable
  have tracked := sound.tracked iri (by simp [first])
  have left : step start (.worked now peerId fetch) = ⟨fetch.record now iri peerId start.queue, rest⟩ := by
    simp only [step, first]
  have outside : iri ∉ rest := by
    have once := sound.once
    rw [first] at once
    exact (List.nodup_cons.1 once).1
  rw [run_cons, left] at again
  rw [left] at apart
  obtain ⟨entry, held, named⟩ := List.mem_map.1 (@record_tracked now iri peerId fetch _ _ tracked)
  exact picked (record_keyed sound.keyed) ⟨entry, held, named, record_until told entry held named⟩ outside apart again

end Runs

section Specimen

/-- A record is cited, and fetched in vain twice. -/
def cited : List Event := [.cited "2026-01-01T00:00:00+00:00" "https://peer.example/artifact/1"]

/-- Fixed times, two minutes and four minutes on. -/
def laterOn (seconds : Nat) : String := if seconds ≤ 120 then "2026-01-01T00:03:00+00:00" else "2026-01-01T00:07:30+00:00"

def tries : List Event :=
  [.tick "2026-01-01T00:00:30+00:00", .worked "2026-01-01T00:01:00+00:00" none (.failed 1 laterOn "refused")]

def retries : List Event := [.tick "2026-01-01T00:02:00+00:00", .tick "2026-01-01T00:03:30+00:00"]

theorem cited_rests : ∃ before tick after, retries = before ++ .tick tick :: after ∧
    le "2026-01-01T00:03:00+00:00" tick = true :=
  @rests "https://peer.example/artifact/1" (run step .empty (cited ++ [.tick "2026-01-01T00:00:30+00:00"])) ⟨_, rfl⟩ []
    (by decide) "2026-01-01T00:01:00+00:00" _ none (.failed 1 laterOn "refused") (by decide) retries (by decide) (by decide)

end Specimen

end ToolArtifactRegistry.Laws.Rotating

/-! The worker that posts the matches. -/
namespace ToolArtifactRegistry.Laws.Rotating

open Library.Tables Library.Text Library.Runs Subscriptions

section Deliveries

variable {policy : RetryPolicy} {later : String → Nat → String} {id sid time : String} {desk : Subscriptions.Desk}
  {move : Move}

/-- A match of the subscription is to be attempted from this time on. -/
def Pending (id sid time : String) (queue : Queue) : Prop :=
  ∃ d ∈ queue.deliveries, d.id = id ∧ d.subscriptionId = sid ∧ Open d ∧ d.nextAttemptAt = some time

/-- What is matched by the subscription is posted. -/
def Listening (sid : String) (queue : Queue) : Prop :=
  ∃ sub ∈ queue.subscriptions, sub.id = sid ∧ sub.enabled = true ∧ sub.deliveryState = .active ∧ sub.webhookUrl.isSome = true

def Attempts (id : String) (desk : Subscriptions.Desk) : Move → Prop
  | .attempt _ _ => (desk.batch.map DueDelivery.id).head? = some id
  | _ => False

/-- Nothing is put off to a time that is not after this one; the process goes on, and the owner leaves the queue of the
subscription as it is. -/
def Unhurried (later : String → Nat → String) (sid time : String) : Move → Prop
  | .enqueue _ _ now _ => le now time = false
  | .collect now _ => le now time = false
  | .attempt now _ => ∀ seconds, le (later now seconds) time = false
  | .update subscription now patch => patch.resume = true → subscription ≠ sid ∧ le now time = false
  | .restart => False
  | _ => True

/-- And it is listened to all the while. -/
def Meanwhile (policy : RetryPolicy) (later : String → Nat → String) (sid time : String) (desk : Subscriptions.Desk)
    (move : Move) : Prop :=
  Listening sid (step policy later desk move).queue ∧ Unhurried later sid time move

/-- How many deliveries a pass collects at most. -/
def room (desk : Subscriptions.Desk) : Move → Nat
  | .collect _ limit => if desk.batch.isEmpty then limit else 0
  | _ => 0

def early (time : String) (d : Delivery) : Bool :=
  decide (d.status = .pending ∨ d.status = .failed) && d.nextAttemptAt.all (fun next => le next time)

/-- The other deliveries that are no later, and not in the batch already. -/
def before (id time : String) (desk : Subscriptions.Desk) : Finset String :=
  (((desk.queue.deliveries.filter (early time)).map Delivery.id).toFinset.erase id) \
    (desk.batch.map DueDelivery.id).toFinset

theorem mem_before {other : String} : other ∈ before id time desk ↔
    (other ≠ id ∧ ∃ d ∈ desk.queue.deliveries, early time d = true ∧ d.id = other) ∧
      other ∉ desk.batch.map DueDelivery.id := by
  simp [before, and_assoc]

theorem not_early {d : Delivery} {next : String} (set : d.nextAttemptAt = some next) (late : le next time = false) :
    early time d = false := by
  simp [early, set, late]

/-- A failure is put off, or it is the last. -/
theorem failed_deliveries (queue : Queue) (delivery subscription now error : String) (code : Option Nat) :
    ∃ retry, (queue.markFailed policy later delivery subscription now error code).deliveries =
        updateWhere (fun d => decide (d.id = delivery)) (Queue.failure now (String.ofList (error.toList.take 400)) code
          (queue.attemptsOf delivery + 1) retry) queue.deliveries ∧
      ∀ next ∈ retry, ∃ seconds, next = later now seconds := by
  refine ⟨if policy.maxAttempts ≤ queue.attemptsOf delivery + 1 then none
    else some (later now (policy.backoffSecs (queue.attemptsOf delivery + 1))), updateIf_deliveries.1, fun next mem => ?_⟩
  split at mem
  · cases mem
  · exact ⟨_, (Option.some.inj mem).symm⟩

/-- What an attempt leaves of its delivery is not early. -/
theorem attempted_early {queue : Queue} {due : DueDelivery} {now : String} {outcome : Attempt} {d : Delivery}
    (off : ∀ seconds, le (later now seconds) time = false)
    (mem : d ∈ (attempted policy later queue due now outcome).deliveries) (due_ : early time d = true) :
    d ∈ queue.deliveries ∧ d.id ≠ due.id := by
  have changed {change : Delivery → Delivery} (set : ∀ row, early time (change row) = false)
      (held : d ∈ updateWhere (fun row => decide (row.id = due.id)) change queue.deliveries) :
      d ∈ queue.deliveries ∧ d.id ≠ due.id := by
    obtain ⟨old, there, same⟩ := mem_updateWhere.1 held
    by_cases here : old.id = due.id
    · rw [if_pos (decide_eq_true here)] at same
      rw [same, set old] at due_
      cases due_
    · rw [if_neg (by simpa using here)] at same
      exact ⟨same ▸ there, same ▸ here⟩
  cases outcome with
  | answered code => exact changed (fun _ => rfl) mem
  | failed error code =>
    obtain ⟨retry, deliveries, told⟩ := @failed_deliveries policy later queue due.id due.subscriptionId now error code
    rw [attempted, deliveries] at mem
    refine changed (fun row => ?_) mem
    cases retry with
    | none => rfl
    | some next =>
      obtain ⟨seconds, same⟩ := told next rfl
      exact not_early rfl (same ▸ off seconds)

/-- And it leaves the others. -/
theorem attempted_other {queue : Queue} {due : DueDelivery} {now : String} {outcome : Attempt} {d : Delivery}
    (held : d ∈ queue.deliveries) (other : d.id ≠ due.id) :
    d ∈ (attempted policy later queue due now outcome).deliveries := by
  have kept (change : Delivery → Delivery) :
      d ∈ updateWhere (fun row => decide (row.id = due.id)) change queue.deliveries :=
    mem_updateWhere.2 ⟨d, held, by rw [if_neg (by simpa using other)]⟩
  cases outcome with
  | answered code => exact kept (Queue.success now code (due.attempts + 1))
  | failed error code =>
    obtain ⟨retry, deliveries, _⟩ := @failed_deliveries policy later queue due.id due.subscriptionId now error code
    rw [attempted, deliveries]
    exact kept _

theorem update_deliveries (queue : Queue) (subscription now : String) (patch : Patch) :
    (queue.update subscription now patch).deliveries =
      if patch.resume then updateWhere (stuck subscription) (rearm now) queue.deliveries else queue.deliveries := by
  have resumed : (queue.update subscription now patch).deliveries =
      (if patch.resume then (queue.updateSubscription subscription patch.change).resume subscription now
        else queue.updateSubscription subscription patch.change).deliveries := rfl
  rw [resumed]
  split <;> rfl

theorem step_pending (meanwhile : Meanwhile policy later sid time desk move) (other : ¬Attempts id desk move)
    (pending : Pending id sid time desk.queue) : Pending id sid time (step policy later desk move).queue := by
  obtain ⟨listening, unhurried⟩ := meanwhile
  obtain ⟨d, held, named, theirs, rest⟩ := pending
  have kept (mem : d ∈ (step policy later desk move).queue.deliveries) :
      Pending id sid time (step policy later desk move).queue := ⟨d, mem, named, theirs, rest⟩
  apply kept
  cases move with
  | subscribe new now given =>
    simp only [step]
    split
    · rename_i queue created
      unfold Queue.create at created
      split at created
      · cases created
      · cases created
        exact held
    · exact held
  | enqueue gap new now m =>
    rcases enqueue_cases desk.queue gap new now m with same | ⟨_, deliveries, _⟩
    · rw [step, same]
      exact held
    · rw [step, deliveries]
      exact List.mem_append_left _ held
  | collect now limit =>
    simp only [step]
    split <;> exact held
  | attempt now outcome =>
    unfold Attempts at other
    simp only [step]
    cases batch : desk.batch with
    | nil => exact held
    | cons due later_ =>
      rw [batch] at other
      exact attempted_other held (fun same => other (congrArg some (same.symm.trans named)))
  | restart => exact held
  | update subscription now patch =>
    rw [step, update_deliveries]
    split
    · rename_i resumes
      have apart : d.subscriptionId ≠ subscription := fun same => (unhurried resumes).1 (same.symm.trans theirs)
      exact mem_updateWhere.2 ⟨d, held, by rw [if_neg (by simp [stuck, apart])]⟩
    · exact held
  | poll subscription now => exact held
  | acknowledge subscription now cursor => exact held
  | delete subscription =>
    obtain ⟨sub, there, same, _⟩ := listening
    have apart : sub.id ≠ subscription := by simpa using (mem_deleteWhere.1 there).2
    refine mem_deleteWhere.2 ⟨held, ?_⟩
    simpa using fun equal => apart (same.trans (theirs.symm.trans equal))

/-- What is early was there before, and is not what has just been attempted. -/
theorem step_early {d : Delivery} (unhurried : Unhurried later sid time move)
    (mem : d ∈ (step policy later desk move).queue.deliveries) (due : early time d = true) :
    d ∈ desk.queue.deliveries ∧
      ∀ now outcome, move = .attempt now outcome → (desk.batch.map DueDelivery.id).head? ≠ some d.id := by
  cases move with
  | subscribe new now given =>
    refine ⟨?_, by simp⟩
    simp only [step] at mem
    split at mem
    · rename_i queue created
      unfold Queue.create at created
      split at created
      · cases created
      · cases created
        exact mem
    · exact mem
  | enqueue gap new now m =>
    refine ⟨?_, by simp⟩
    rcases enqueue_cases desk.queue gap new now m with same | ⟨_, deliveries, _⟩
    · rw [step, same] at mem
      exact mem
    · rw [step, deliveries] at mem
      rcases List.mem_append.1 mem with old | queued
      · exact old
      · rw [List.mem_singleton.1 queued, not_early rfl unhurried] at due
        cases due
  | collect now limit =>
    refine ⟨?_, by simp⟩
    simp only [step] at mem
    split at mem <;> exact mem
  | attempt now outcome =>
    simp only [step] at mem
    cases batch : desk.batch with
    | nil =>
      rw [batch] at mem
      exact ⟨mem, by simp⟩
    | cons first rest =>
      rw [batch] at mem
      obtain ⟨held, apart⟩ := attempted_early unhurried mem due
      exact ⟨held, fun _ _ _ same => apart (Option.some.inj same).symm⟩
  | restart => exact ⟨mem, by simp⟩
  | update subscription now patch =>
    refine ⟨?_, by simp⟩
    rw [step, update_deliveries] at mem
    split at mem
    · rename_i resumes
      obtain ⟨old, held, same⟩ := mem_updateWhere.1 mem
      split at same
      · rw [same, not_early rfl (unhurried resumes).2] at due
        cases due
      · exact same ▸ held
    · exact mem
  | poll subscription now => exact ⟨mem, by simp⟩
  | acknowledge subscription now cursor => exact ⟨mem, by simp⟩
  | delete subscription => exact ⟨(mem_deleteWhere.1 mem).1, by simp⟩

theorem step_taken (unhurried : Unhurried later sid time move) (other : ¬Attempts id desk move)
    (taken : id ∈ desk.batch.map DueDelivery.id) : id ∈ (step policy later desk move).batch.map DueDelivery.id := by
  cases move with
  | collect now limit =>
    simp only [step]
    split
    · rename_i idle
      rw [List.isEmpty_iff.1 idle] at taken
      cases taken
    · exact taken
  | attempt now outcome =>
    unfold Attempts at other
    simp only [step]
    cases batch : desk.batch with
    | nil =>
      rw [batch] at taken
      cases taken
    | cons first rest =>
      rw [batch] at taken other
      exact (List.mem_cons.1 taken).resolve_left (fun same => other (congrArg some same.symm))
  | subscribe new now given =>
    simp only [step]
    split <;> exact taken
  | restart => exact unhurried.elim
  | enqueue | update | poll | acknowledge | delete => exact taken

/-- Nothing gets ahead while nothing is collected. -/
theorem step_before (unhurried : Unhurried later sid time move) (batch : ∀ other ∈ desk.batch.map DueDelivery.id,
      other ∈ (step policy later desk move).batch.map DueDelivery.id ∨
        ∃ now outcome, move = .attempt now outcome ∧ (desk.batch.map DueDelivery.id).head? = some other) :
    before id time (step policy later desk move) ⊆ before id time desk := by
  intro other mem
  obtain ⟨⟨apart, d, held, due, named⟩, outside⟩ := mem_before.1 mem
  obtain ⟨old, unattempted⟩ := step_early unhurried held due
  refine mem_before.2 ⟨⟨apart, d, old, due, named⟩, fun waiting => ?_⟩
  rcases batch other waiting with still | ⟨now, outcome, attempt, first⟩
  · exact outside still
  · exact unattempted now outcome attempt (named ▸ first)

/-- The worker collects the delivery, or as many that are no later as it has room for. -/
theorem due_or_full {queue : Queue} {now : String} (limit : Nat) (listening : Listening sid queue)
    (pending : Pending id sid time queue) (come : le time now = true) :
    id ∈ (queue.dueDeliveries now limit).map DueDelivery.id ∨
      (queue.dueDeliveries now limit).length = limit ∧
        ∀ due ∈ queue.dueDeliveries now limit, ∃ d ∈ queue.deliveries, early time d = true ∧ d.id = due.id := by
  obtain ⟨d, held, named, theirs, open_, next⟩ := pending
  obtain ⟨sub, there, same, enabled, active, hooked⟩ := listening
  have joined : (d, sub) ∈ queue.joined := mem_joined.2 ⟨held, there, same.trans theirs.symm⟩
  have due : Queue.isDue now d sub = true := by
    unfold Open at open_
    simp [Queue.isDue, open_, next, come, enabled, active, hooked]
  have selects := Timing.selects_sorted (fun left right => Queue.dueBefore left right = true)
    (fun row : Delivery × Subscription => Queue.isDue now row.1 row.2) limit queue.joined
  unfold Queue.dueDeliveries
  rcases selects.2 (d, sub) joined due with chosen | ⟨full, earlier⟩
  · exact Or.inl (List.mem_map.2 ⟨_, List.mem_map.2 ⟨_, chosen, rfl⟩, named⟩)
  · refine Or.inr ⟨(List.length_map _).trans full, fun due mem => ?_⟩
    obtain ⟨row, chosen, rfl⟩ := List.mem_map.1 mem
    obtain ⟨inTable, isDue⟩ := selects.1 row chosen
    refine ⟨row.1, (mem_joined.1 inTable).1, ?_, rfl⟩
    have sooner : Queue.dueBefore row (d, sub) = true := earlier row chosen
    have waiting : Open row.1 := open_of_isDue isDue
    unfold Open at waiting
    rw [Timing.dueBefore_iff, next] at sooner
    unfold early
    rw [decide_eq_true waiting, Bool.true_and]
    cases first : row.1.nextAttemptAt with
    | none => rfl
    | some first =>
      rw [first] at sooner
      simpa using sooner.1

theorem step_nearer (sound : Subscriptions.Sound policy desk) (meanwhile : Meanwhile policy later sid time desk move)
    (listening : Listening sid desk.queue) (pending : Pending id sid time desk.queue) :
    id ∈ (step policy later desk move).batch.map DueDelivery.id ∨
      (before id time (step policy later desk move)).card + room desk move ≤ (before id time desk).card := by
  obtain ⟨_, unhurried⟩ := meanwhile
  have idle (none_ : room desk move = 0) (batch : ∀ other ∈ desk.batch.map DueDelivery.id,
      other ∈ (step policy later desk move).batch.map DueDelivery.id ∨
        ∃ now outcome, move = .attempt now outcome ∧ (desk.batch.map DueDelivery.id).head? = some other) :
      (before id time (step policy later desk move)).card + room desk move ≤ (before id time desk).card := by
    rw [none_, Nat.add_zero]
    exact Finset.card_le_card (step_before unhurried batch)
  cases move with
  | collect now limit =>
    cases empty : desk.batch.isEmpty with
    | false => exact Or.inr (idle (by simp [room, empty]) (fun other mem => Or.inl (by simpa [step, empty] using mem)))
    | true =>
      have come : le time now = true := (charsLe_total time.toList now.toList).resolve_right (fun earlier => by
        rw [Unhurried, le] at unhurried
        rw [unhurried] at earlier
        cases earlier)
      have collected : step policy later desk (.collect now limit) =
          { desk with batch := desk.queue.dueDeliveries now limit } := if_pos empty
      rw [collected]
      rcases due_or_full limit listening pending come with mine | ⟨full, sooner⟩
      · exact Or.inl mine
      · by_cases mine : id ∈ (desk.queue.dueDeliveries now limit).map DueDelivery.id
        · exact Or.inl mine
        · right
          have none_ : desk.batch = [] := List.isEmpty_iff.1 empty
          have within : ∀ other ∈ (desk.queue.dueDeliveries now limit).map DueDelivery.id, other ∈ before id time desk := by
            intro other mem
            obtain ⟨due, chosen, rfl⟩ := List.mem_map.1 mem
            refine mem_before.2 ⟨⟨?_, sooner due chosen⟩, by simp [none_]⟩
            rintro rfl
            exact mine (List.mem_map_of_mem chosen)
          have left : before id time { desk with batch := desk.queue.dueDeliveries now limit } =
              before id time desk \ ((desk.queue.dueDeliveries now limit).map DueDelivery.id).toFinset := by
            unfold before
            rw [none_, List.map_nil, List.toFinset_nil, Finset.sdiff_empty]
          have counted := card_taken (due_ids sound.stored now limit) within
          rw [List.length_map, full] at counted
          rw [left, room, if_pos empty, counted]
  | attempt now outcome =>
    refine Or.inr (idle rfl (fun other mem => ?_))
    simp only [step]
    cases batch : desk.batch with
    | nil =>
      rw [batch] at mem
      cases mem
    | cons first rest =>
      rw [batch] at mem
      rcases List.mem_cons.1 mem with here | later_
      · exact Or.inr ⟨now, outcome, rfl, congrArg some here.symm⟩
      · exact Or.inl later_
  | subscribe new now given =>
    refine Or.inr (idle rfl (fun other mem => Or.inl ?_))
    simp only [step]
    split <;> exact mem
  | restart => exact unhurried.elim
  | enqueue | update | poll | acknowledge | delete => exact Or.inr (idle rfl (fun other mem => Or.inl mem))

/-- A delivery that is listened for, and the worker. -/
def turn (policy : RetryPolicy) (id sid time : String) : Turn Subscriptions.Desk Move where
  waits desk := Subscriptions.Sound policy desk ∧ Listening sid desk.queue ∧ Pending id sid time desk.queue
  taken desk := id ∈ desk.batch.map DueDelivery.id
  serves := Attempts id
  ahead desk := (before id time desk).card
  room := room

theorem turn_advances : (turn policy id sid time).Advances (step policy later) (Meanwhile policy later sid time) where
  waits _ _ meanwhile other waits := ⟨Subscriptions.step_sound waits.1, meanwhile.1, step_pending meanwhile other waits.2.2⟩
  taken _ _ meanwhile other taken := step_taken meanwhile.2 other taken
  nearer _ _ meanwhile waits := step_nearer waits.1 meanwhile waits.2.1 waits.2.2

/-- No match starves: while it is listened for, it is attempted once the passes have had room for all that are no later than
it, in any order of matches, requests and attempts. -/
theorem attempt_comes {history events : List Move} (pending : Pending id sid time (run (step policy later) {} history).queue)
    (listening : Listening sid (run (step policy later) {} history).queue)
    (meanwhile : Meets (step policy later) (Meanwhile policy later sid time) (run (step policy later) {} history) events)
    (enough : (before id time (run (step policy later) {} history)).card <
      total (step policy later) room (run (step policy later) {} history) events)
    (idle : (run (step policy later) (run (step policy later) {} history) events).batch = []) :
    Happens (step policy later) (Attempts id) (run (step policy later) {} history) events := by
  have sound : Subscriptions.Sound policy (run (step policy later) {} history) :=
    run_invariant _ (Subscriptions.Sound policy) ⟨stored_empty policy, by simp, by simp, by simp⟩
      (fun _ _ sound _ => Subscriptions.step_sound sound)
      (@meets_of_forall _ _ _ (fun _ _ => True) _ _ (fun _ _ _ => trivial))
  exact turn_advances.comes meanwhile ⟨sound, listening, pending⟩ enough (by simp [turn, idle])

end Deliveries

section Specimen

/-- A webhook is set up, and a first match is queued. -/
def matched : List Move :=
  [.subscribe "s" "2026-01-01T00:00:00+00:00"
      ⟨"https://reg.example/instance/i", none, {}, some "https://hook.example/", some "secret", none⟩,
    .enqueue 0 "d" "2026-01-01T00:01:00+00:00"
      ⟨"s", "https://reg.example/artifact/a", none, roleProduced, .null⟩]

/-- One more comes, and a pass with room for one posts the first. -/
def posted : List Move :=
  [.enqueue 0 "e" "2026-01-01T00:02:00+00:00" ⟨"s", "https://reg.example/artifact/b", none, roleProduced, .null⟩,
    .collect "2026-01-01T00:03:00+00:00" 1, .attempt "2026-01-01T00:03:01+00:00" (.answered 200)]

def nextDay (_ : String) (_ : Nat) : String := "2026-01-02T00:00:00+00:00"

theorem first_attempted : Happens (step {} nextDay) (Attempts "d") (run (step {} nextDay) {} matched) posted :=
  @attempt_comes {} nextDay "d" "s" "2026-01-01T00:01:00+00:00" matched posted
    ⟨_, List.mem_singleton_self _, rfl, rfl, Or.inl rfl, rfl⟩ ⟨_, List.mem_singleton_self _, rfl, rfl, rfl, rfl⟩
    ⟨⟨⟨_, List.mem_singleton_self _, rfl, rfl, rfl, rfl⟩, rfl⟩, ⟨⟨_, List.mem_singleton_self _, rfl, rfl, rfl, rfl⟩, rfl⟩,
      ⟨⟨_, List.mem_singleton_self _, rfl, rfl, rfl, rfl⟩, fun _ => by unfold nextDay; decide⟩, trivial⟩
    (by decide) rfl

end Specimen

end ToolArtifactRegistry.Laws.Rotating
