import Mathlib.Data.Finset.Card
import Mathlib.Data.Finset.SDiff
import ToolArtifactRegistry.Library.Runs

/-! A worker that takes what waits in batches and works each batch off. One who waits has their turn once the batches have
had room for all those ahead, if every step takes its room from them. -/
namespace ToolArtifactRegistry.Library.Runs

variable {State Event : Type} (step : State → Event → State)

/-- At some point of the run the event is of this kind. -/
def Happens (kind : State → Event → Prop) (start : State) (events : List Event) : Prop :=
  ∃ before event rest, events = before ++ event :: rest ∧ kind (run step start before) event

/-- What the events of a run have together. -/
def total (room : State → Event → Nat) : State → List Event → Nat
  | _, [] => 0
  | state, event :: rest => room state event + total room (step state event) rest

/-- One who waits, is taken into a batch, and is served: how many are ahead, and how many an event has room for. -/
structure Turn (State Event : Type) where
  waits : State → Prop
  taken : State → Prop
  serves : State → Event → Prop
  ahead : State → Nat
  room : State → Event → Nat

/-- What does not serve them leaves them waiting, or where they are taken; and what has room takes them, or as many of those
ahead. -/
structure Turn.Advances (turn : Turn State Event) (condition : State → Event → Prop) : Prop where
  waits : ∀ state event, condition state event → ¬turn.serves state event → turn.waits state → turn.waits (step state event)
  taken : ∀ state event, condition state event → ¬turn.serves state event → turn.taken state → turn.taken (step state event)
  nearer : ∀ state event, condition state event → turn.waits state →
    turn.taken (step state event) ∨ turn.ahead (step state event) + turn.room state event ≤ turn.ahead state

variable {step}

theorem Happens.here {kind : State → Event → Prop} {start : State} {event : Event} {rest : List Event}
    (now : kind start event) : Happens step kind start (event :: rest) := ⟨[], event, rest, rfl, now⟩

theorem Happens.later {kind : State → Event → Prop} {start : State} {event : Event} {rest : List Event}
    (happens : Happens step kind (step start event) rest) : Happens step kind start (event :: rest) := by
  obtain ⟨before, culprit, after, rfl, then_⟩ := happens
  exact ⟨event :: before, culprit, after, rfl, then_⟩

namespace Turn.Advances

variable {turn : Turn State Event} {condition : State → Event → Prop} {start : State} {events : List Event}

/-- Who is taken is served before the batch is worked off. -/
theorem worked_off (advances : turn.Advances step condition) (meets : Meets step condition start events)
    (taken : turn.taken start) (idle : ¬turn.taken (run step start events)) : Happens step turn.serves start events := by
  induction events generalizing start with
  | nil => exact absurd taken idle
  | cons event rest ih =>
    by_cases here : turn.serves start event
    · exact .here here
    · exact (ih meets.2 (advances.taken start event meets.1 here taken) idle).later

theorem comes (advances : turn.Advances step condition) (meets : Meets step condition start events)
    (waits : turn.waits start) (enough : turn.ahead start < total step turn.room start events)
    (idle : ¬turn.taken (run step start events)) : Happens step turn.serves start events := by
  induction events generalizing start with
  | nil => exact absurd enough (Nat.not_lt_zero _)
  | cons event rest ih =>
    by_cases here : turn.serves start event
    · exact .here here
    · rcases advances.nearer start event meets.1 waits with taken | nearer
      · exact (advances.worked_off meets.2 taken idle).later
      · refine (ih meets.2 (advances.waits start event meets.1 here waits) ?_ idle).later
        rw [total] at enough
        omega

end Turn.Advances

/-- A batch of some of those ahead takes its number of them. -/
theorem card_taken {α : Type} [DecidableEq α] {ahead : Finset α} {batch : List α} (once : batch.Nodup)
    (within : ∀ one ∈ batch, one ∈ ahead) : (ahead \ batch.toFinset).card + batch.length = ahead.card := by
  have inside : batch.toFinset ⊆ ahead := fun one mem => within one (List.mem_toFinset.1 mem)
  rw [← List.toFinset_card_of_nodup once]
  exact Finset.card_sdiff_add_card_eq_card inside

end ToolArtifactRegistry.Library.Runs
