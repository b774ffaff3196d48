import ToolArtifactRegistry.Library.Programs

/-! Programs that look before they act. A call may rest on what the calls before it found; when no call of
another program takes that away in between, every call is made where it still is so. -/
namespace ToolArtifactRegistry.Library.Programs

open Library.Runs

variable {S : System} {α β : Type}

/-- What every state keeps, what a call rests on, and where one may be made. -/
structure Footing (S : System) where
  inv : S.State → Prop
  rests : S.Call → S.State → Prop
  permitted : S.Call → S.State → Prop

/-- Nothing kept and nothing forbidden: what calls rest on alone. -/
def Footing.bare (rests : S.Call → S.State → Prop) : Footing S := ⟨fun _ => True, rests, fun _ _ => True⟩

variable (F : Footing S)

/-- What the next call rests on is so. -/
def Program.Ready (p : Program S α) (s : S.State) : Prop := ∀ c, p.next? = some c → F.rests c s

/-- After each of its calls, what the next one rests on has just been found so. -/
def Program.Looks : Program S α → Prop
  | .done _ => True
  | .call c rest => ∀ s, F.inv s → F.rests c s → F.permitted c s →
    (rest (S.perform c s).1).Ready F (S.perform c s).2 ∧ (rest (S.perform c s).1).Looks

/-- A program that looks before it acts, wherever it begins. -/
def Program.Careful (p : Program S α) : Prop := p.Looks F ∧ ∀ s, p.Ready F s

namespace Program

variable {F}

theorem ready_done (answer : α) (s : S.State) : (done answer : Program S α).Ready F s := fun _ some_ => nomatch some_

theorem ready_call {c : S.Call} {rest : S.Reply c → Program S α} {s : S.State} :
    (call c rest).Ready F s ↔ F.rests c s :=
  ⟨fun ready => ready c rfl, fun holds _ same => Option.some.inj same ▸ holds⟩

theorem careful_done (answer : α) : (done answer : Program S α).Careful F := ⟨trivial, ready_done answer⟩

/-- A call that rests on nothing, with what it finds for the rest. -/
theorem careful_call {c : S.Call} {rest : S.Reply c → Program S α} (free : ∀ s, F.rests c s)
    (found : ∀ s, F.inv s → F.permitted c s →
      (rest (S.perform c s).1).Ready F (S.perform c s).2 ∧ (rest (S.perform c s).1).Looks F) :
    (call c rest).Careful F := ⟨fun s inv _ permitted => found s inv permitted, fun s => ready_call.2 (free s)⟩

theorem Looks.of_careful {c : S.Call} {rest : S.Reply c → Program S α} (each : ∀ reply, (rest reply).Careful F) :
    (call c rest).Looks F := fun _ _ _ _ => ⟨(each _).2 _, (each _).1⟩

/-- Asking, and going on with the answer. -/
theorem ask_bind (c : S.Call) (next : S.Reply c → Program S β) : (ask c >>= next) = call c next := rfl

theorem Careful.anywhere {p : Program S α} (careful : p.Careful F) (s : S.State) :
    p.Ready F s ∧ p.Looks F := ⟨careful.2 s, careful.1⟩

end Program

namespace Pool

/-- A turn of a program that is done is no turn. -/
theorem step_done {pool : Pool S α} {place : Nat} {answer : α} (here : pool.running[place]? = some (.done answer)) :
    pool.step (.next place) = pool := by
  rw [step_next here]
  have same : pool.running.set place (.done answer) = pool.running := by
    apply List.ext_getElem?
    intro other
    by_cases at_ : place = other
    · subst at_
      rw [List.getElem?_set_self (List.getElem?_eq_some_iff.1 here).1, here]
    · rw [List.getElem?_set_ne at_]
  simp only [Program.advance, same]

/-- The program at a place is about to make a call. -/
def Calls (pool : Pool S α) (place : Nat) (c : S.Call) : Prop :=
  ∃ p, pool.running[place]? = some p ∧ p.next? = some c

/-- Every program but the one at a place is done. -/
def alone (pool : Pool S α) (place : Nat) : Bool :=
  pool.running.zipIdx.all (fun entry => entry.2 == place || entry.1.next?.isNone)

theorem not_calls_of_alone {pool : Pool S α} {place other : Nat} (others : pool.alone place = true)
    (elsewhere : other ≠ place) (c : S.Call) : ¬ pool.Calls other c := by
  intro calls
  obtain ⟨p, found, next⟩ := calls
  have listed : (p, other) ∈ pool.running.zipIdx := List.mk_mem_zipIdx_iff_getElem?.2 found
  have quiet := List.all_eq_true.1 others _ listed
  simp [elsewhere, next] at quiet

/-- A call leaves standing what the calls of the others rest on. -/
def Spares (pool : Pool S α) (place : Nat) (c : S.Call) : Prop :=
  ∀ (other : Nat) d, other ≠ place → pool.Calls other d → F.rests d pool.state → F.rests d (S.perform c pool.state).2

/-- What begins looks before it acts, and a call that rests on what is so keeps what is kept and undoes
nothing that another rests on. -/
def Heedful (pool : Pool S α) : Turn S α → Prop
  | .start p => p.Careful F
  | .next place => ∀ c, pool.Calls place c → F.inv pool.state → F.rests c pool.state →
      F.permitted c pool.state ∧ F.inv (S.perform c pool.state).2 ∧ pool.Spares F place c

/-- What is kept is so, every program under way looks before it acts, and what its next call rests on is so. -/
structure Sound (pool : Pool S α) : Prop where
  inv : F.inv pool.state
  sound : ∀ (place : Nat) (p : Program S α), pool.running[place]? = some p → p.Looks F ∧ p.Ready F pool.state

/-- The call a turn makes, if any, rests on what is so. -/
def Founded (pool : Pool S α) : Turn S α → Prop
  | .start _ => True
  | .next place => ∀ c, pool.Calls place c → F.rests c pool.state

variable {F}

theorem sound_empty {s : S.State} (inv : F.inv s) : (⟨s, []⟩ : Pool S α).Sound F :=
  ⟨inv, fun _ _ found => nomatch found⟩

theorem Sound.founded {pool : Pool S α} (sound : pool.Sound F) (turn : Turn S α) : pool.Founded F turn := by
  cases turn with
  | start p => trivial
  | next place =>
    intro c calls
    obtain ⟨p, found, next⟩ := calls
    exact (sound.sound place p found).2 c next

theorem Sound.start {pool : Pool S α} (sound : pool.Sound F) {p : Program S α}
    (heedful : pool.Heedful F (.start p)) : (pool.step (.start p)).Sound F := by
  refine ⟨sound.inv, ?_⟩
  intro place q found
  change (pool.running ++ [p])[place]? = some q at found
  by_cases old : place < pool.running.length
  · rw [List.getElem?_append_left old] at found
    exact sound.sound place q found
  · rw [List.getElem?_append_right (by omega), List.getElem?_singleton] at found
    obtain ⟨-, same⟩ := Option.ite_none_right_eq_some.1 found
    obtain rfl := Option.some.inj same
    exact ⟨heedful.1, heedful.2 pool.state⟩

/-- One call: its own program goes on from what it found, the others from what they still rest on. -/
theorem Sound.called {pool : Pool S α} (sound : pool.Sound F) {place : Nat} {c : S.Call}
    {rest : S.Reply c → Program S α} (here : pool.running[place]? = some (.call c rest))
    (heedful : pool.Heedful F (.next place)) :
    (⟨(S.perform c pool.state).2, pool.running.set place (rest (S.perform c pool.state).1)⟩ : Pool S α).Sound F := by
  obtain ⟨looks, ready⟩ := sound.sound place _ here
  have founded := ready c rfl
  obtain ⟨permitted, kept, spared⟩ := heedful c ⟨_, here, rfl⟩ sound.inv founded
  refine ⟨kept, ?_⟩
  intro other q found
  by_cases same : place = other
  · subst same
    rw [List.getElem?_set_self (List.getElem?_eq_some_iff.1 here).1] at found
    obtain rfl := Option.some.inj found
    obtain ⟨next, further⟩ := looks pool.state sound.inv founded permitted
    exact ⟨further, next⟩
  · rw [List.getElem?_set_ne same] at found
    obtain ⟨otherLooks, otherReady⟩ := sound.sound other q found
    refine ⟨otherLooks, ?_⟩
    intro d next
    exact spared other d (Ne.symm same) ⟨q, found, next⟩ (otherReady d next)

theorem Sound.next {pool : Pool S α} (sound : pool.Sound F) {place : Nat}
    (heedful : pool.Heedful F (.next place)) : (pool.step (.next place)).Sound F := by
  cases here : pool.running[place]? with
  | none =>
    simp only [step, here]
    exact sound
  | some p =>
    rw [step_next here]
    cases p with
    | call c rest => exact sound.called here heedful
    | done answer =>
      rw [← step_next here, step_done here]
      exact sound

theorem Sound.step {pool : Pool S α} (sound : pool.Sound F) {turn : Turn S α} (heedful : pool.Heedful F turn) :
    (pool.step turn).Sound F := by
  cases turn with
  | start p => exact sound.start heedful
  | next place => exact sound.next heedful

/-- In a heedful run what is kept is so throughout, and every call is made where what it rests on is so. -/
theorem run_sound {pool : Pool S α} {turns : List (Turn S α)} (sound : pool.Sound F)
    (heedful : Meets Pool.step (Heedful F) pool turns) : (run Pool.step pool turns).Sound F :=
  run_invariant Pool.step (Sound F) sound (fun _ _ sound heedful => sound.step heedful) heedful

theorem meets_founded {pool : Pool S α} {turns : List (Turn S α)} (sound : pool.Sound F)
    (heedful : Meets Pool.step (Heedful F) pool turns) : Meets Pool.step (Founded F) pool turns := by
  induction turns generalizing pool with
  | nil => trivial
  | cons turn rest ih => exact ⟨sound.founded turn, ih (sound.step heedful.1) heedful.2⟩

end Pool

end ToolArtifactRegistry.Library.Programs
