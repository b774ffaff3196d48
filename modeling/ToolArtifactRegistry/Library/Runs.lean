import Mathlib.Data.List.Basic

/-! Runs of a deterministic system whose events carry every choice, and the two induction rules
the developments over it use: invariants, and invariants with a memory of the run. -/
namespace ToolArtifactRegistry.Library.Runs

variable {State Event : Type} (step : State → Event → State)

def run (start : State) (events : List Event) : State := events.foldl step start

@[simp] theorem run_nil (start : State) : run step start [] = start := rfl

@[simp] theorem run_cons (start : State) (event : Event) (rest : List Event) :
    run step start (event :: rest) = run step (step start event) rest := rfl

theorem run_append (start : State) (left right : List Event) :
    run step start (left ++ right) = run step (run step start left) right :=
  List.foldl_append

/-- Each event of the run meets a condition on the state it is performed in. -/
def Meets (condition : State → Event → Prop) : State → List Event → Prop
  | _, [] => True
  | state, event :: rest => condition state event ∧ Meets condition (step state event) rest

theorem meets_append {condition : State → Event → Prop} {start : State} {left right : List Event} :
    Meets step condition start (left ++ right) ↔
      Meets step condition start left ∧ Meets step condition (run step start left) right := by
  induction left generalizing start with
  | nil => simp [Meets]
  | cons event rest ih => simp [Meets, ih, and_assoc]

theorem meets_mono {strong weak : State → Event → Prop} {start : State} {events : List Event}
    (weaker : ∀ state event, strong state event → weak state event)
    (meets : Meets step strong start events) : Meets step weak start events := by
  induction events generalizing start with
  | nil => trivial
  | cons event rest ih => exact ⟨weaker _ _ meets.1, ih meets.2⟩

/-- A condition every event of the run meets wherever it is performed. -/
theorem meets_of_forall {condition : State → Event → Prop} (start : State) (events : List Event)
    (each : ∀ event ∈ events, ∀ state, condition state event) : Meets step condition start events := by
  induction events generalizing start with
  | nil => trivial
  | cons event rest ih =>
    exact ⟨each event List.mem_cons_self start, ih _ (fun other mem => each other (List.mem_cons_of_mem _ mem))⟩

instance decidableMeets {condition : State → Event → Prop}
    [∀ state event, Decidable (condition state event)] :
    (start : State) → (events : List Event) → Decidable (Meets step condition start events)
  | _, [] => isTrue trivial
  | start, event :: rest =>
    have : Decidable (Meets step condition (step start event) rest) := decidableMeets (step start event) rest
    inferInstanceAs (Decidable (_ ∧ _))

/-- What holds at the start and is kept by every permitted step holds at the end of the run. -/
theorem run_invariant (Inv : State → Prop) {condition : State → Event → Prop} {start : State}
    {events : List Event} (initial : Inv start)
    (keeps : ∀ state event, Inv state → condition state event → Inv (step state event))
    (meets : Meets step condition start events) : Inv (run step start events) := by
  induction events generalizing start with
  | nil => exact initial
  | cons event rest ih => exact ih (keeps _ _ initial meets.1) meets.2

/-- A record of the run, extended at each step from the state before and the event. -/
def remember {Memory : Type} (note : Memory → State → Event → Memory) :
    Memory → State → List Event → Memory
  | memory, _, [] => memory
  | memory, state, event :: rest => remember note (note memory state event) (step state event) rest

theorem remember_append {Memory : Type} (note : Memory → State → Event → Memory) (memory : Memory) (start : State)
    (left right : List Event) : remember step note memory start (left ++ right) =
      remember step note (remember step note memory start left) (run step start left) right := by
  induction left generalizing memory start with
  | nil => rfl
  | cons event rest ih => exact ih _ _

theorem remember_invariant {Memory : Type} (Inv : Memory → State → Prop) {note : Memory → State → Event → Memory}
    {condition : State → Event → Prop} {start : State}
    {memory : Memory} {events : List Event} (initial : Inv memory start)
    (keeps : ∀ memory state event, Inv memory state → condition state event →
      Inv (note memory state event) (step state event))
    (meets : Meets step condition start events) :
    Inv (remember step note memory start events) (run step start events) := by
  induction events generalizing start memory with
  | nil => exact initial
  | cons event rest ih => exact ih (keeps _ _ _ initial meets.1) meets.2

end ToolArtifactRegistry.Library.Runs
