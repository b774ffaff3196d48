import Mathlib.Order.Defs.PartialOrder
import ToolArtifactRegistry.Library.Runs

/-! Programs as trees of calls to a system: a program run alone, broken off after some calls, and run among
others in any order, with the rule by which what each keeps is kept by all. -/
namespace ToolArtifactRegistry.Library.Programs

open Library.Runs

/-- A system that answers calls, and changes as it does. -/
structure System where
  State : Type
  Call : Type
  Reply : Call → Type
  perform : (call : Call) → State → Reply call × State

inductive Program (S : System) (α : Type) where
  | done (answer : α)
  | call (c : S.Call) (rest : S.Reply c → Program S α)

namespace Program

variable {S : System} {α β γ : Type}

def bind (p : Program S α) (next : α → Program S β) : Program S β :=
  match p with
  | done answer => next answer
  | call c rest => call c (fun reply => (rest reply).bind next)

instance : Monad (Program S) where
  pure := done
  bind := bind

@[simp] theorem pure_eq (answer : α) : (pure answer : Program S α) = done answer := rfl

@[simp] theorem bind_done (answer : α) (next : α → Program S β) : (done answer >>= next) = next answer := rfl

@[simp] theorem bind_call (c : S.Call) (rest : S.Reply c → Program S α) (next : α → Program S β) :
    (call c rest >>= next) = call c (fun reply => rest reply >>= next) := rfl

def ask (c : S.Call) : Program S (S.Reply c) := call c done

/-- The program run alone. -/
def finish : Program S α → S.State → α × S.State
  | done answer, s => (answer, s)
  | call c rest, s => (rest (S.perform c s).1).finish (S.perform c s).2

@[simp] theorem finish_done (answer : α) (s : S.State) : (done answer : Program S α).finish s = (answer, s) := rfl

@[simp] theorem finish_call (c : S.Call) (rest : S.Reply c → Program S α) (s : S.State) :
    (call c rest).finish s = (rest (S.perform c s).1).finish (S.perform c s).2 := rfl

@[simp] theorem finish_ask (c : S.Call) (s : S.State) : (ask c).finish s = S.perform c s := rfl

theorem finish_bind (p : Program S α) (next : α → Program S β) (s : S.State) :
    (p >>= next).finish s = (next (p.finish s).1).finish (p.finish s).2 := by
  induction p generalizing s with
  | done answer => rfl
  | call c rest ih => exact ih _ _

/-- One call, or nothing when the program is done. -/
def advance : Program S α → S.State → Program S α × S.State
  | done answer, s => (done answer, s)
  | call c rest, s => (rest (S.perform c s).1, (S.perform c s).2)

def answer? : Program S α → Option α
  | done answer => some answer
  | call _ _ => none

def next? : Program S α → Option S.Call
  | done _ => none
  | call c _ => some c

end Program

section Rules

variable {S : System} {α β : Type}

/-- What a program relies on and promises: the others take the state only along `grows` and keep `Inv`, and
so does each permitted call of its own; and what it answers meets `post` from then on. -/
structure Contract (S : System) where
  Inv : S.State → Prop
  grows : S.State → S.State → Prop
  permitted : S.State → S.Call → Prop
  refl : ∀ s, grows s s
  trans : ∀ {s t u}, grows s t → grows t u → grows s u

namespace Contract

variable (K : Contract S)

def Holds (post : α → S.State → Prop) : Program S α → S.State → Prop
  | .done answer, s => ∀ t, K.grows s t → K.Inv t → post answer t
  | .call c rest, s => ∀ t, K.grows s t → K.Inv t → K.permitted t c →
    K.Inv (S.perform c t).2 ∧ K.grows t (S.perform c t).2 ∧ Holds post (rest (S.perform c t).1) (S.perform c t).2

variable {K} {post : α → S.State → Prop}

theorem Holds.mono {p : Program S α} {s t : S.State} (holds : K.Holds post p s) (grown : K.grows s t) :
    K.Holds post p t := by
  cases p with
  | done answer => exact fun u further inv => holds u (K.trans grown further) inv
  | call c rest => exact fun u further inv permitted => holds u (K.trans grown further) inv permitted

theorem Holds.weaken {p : Program S α} {s : S.State} {weaker : α → S.State → Prop} (holds : K.Holds post p s)
    (implies : ∀ answer t, K.grows s t → K.Inv t → post answer t → weaker answer t) : K.Holds weaker p s := by
  induction p generalizing s with
  | done answer => exact fun t grown inv => implies answer t grown inv (holds t grown inv)
  | call c rest ih =>
    intro t grown inv permitted
    obtain ⟨kept, further, later⟩ := holds t grown inv permitted
    exact ⟨kept, further, ih _ later (fun answer u between => implies answer u (K.trans grown (K.trans further between)))⟩

/-- Sequencing: the rest may use what the first answered, wherever the others have taken the state since. -/
theorem Holds.bind {p : Program S α} {next : α → Program S β} {s : S.State} {last : β → S.State → Prop}
    (holds : K.Holds post p s)
    (rest : ∀ answer t, (∀ u, K.grows t u → K.Inv u → post answer u) → K.grows s t → K.Holds last (next answer) t) :
    K.Holds last (p >>= next) s := by
  induction p generalizing s with
  | done answer => exact rest answer s holds (K.refl s)
  | call c later ih =>
    intro t grown inv permitted
    obtain ⟨kept, further, held⟩ := holds t grown inv permitted
    exact ⟨kept, further, ih _ held (fun answer u post between =>
      rest answer u post (K.trans grown (K.trans further between)))⟩

end Contract

/-- Programs under way over one state. -/
structure Pool (S : System) (α : Type) where
  state : S.State
  running : List (Program S α)

inductive Turn (S : System) (α : Type) where
  | start (p : Program S α)
  | next (place : Nat)

namespace Pool

/-- Any program may begin, and any of those under way may make its next call. -/
def step (pool : Pool S α) : Turn S α → Pool S α
  | .start p => { pool with running := pool.running ++ [p] }
  | .next place =>
    match pool.running[place]? with
    | none => pool
    | some p => ⟨(p.advance pool.state).2, pool.running.set place (p.advance pool.state).1⟩

/-- The next call of the program whose turn it is is permitted, and what begins keeps the contract. -/
def Allowed (K : Contract S) (post : α → S.State → Prop) (pool : Pool S α) : Turn S α → Prop
  | .start p => ∀ s, K.Inv s → K.Holds post p s
  | .next place => ∀ p, pool.running[place]? = some p → ∀ c, p.next? = some c → K.permitted pool.state c

/-- Every program under way keeps the contract from here on. -/
def Kept (K : Contract S) (post : α → S.State → Prop) (pool : Pool S α) : Prop :=
  K.Inv pool.state ∧ ∀ p ∈ pool.running, K.Holds post p pool.state

variable {K : Contract S} {post : α → S.State → Prop}

theorem step_next {pool : Pool S α} {place : Nat} {p : Program S α} (found : pool.running[place]? = some p) :
    pool.step (.next place) = ⟨(p.advance pool.state).2, pool.running.set place (p.advance pool.state).1⟩ := by
  simp only [step, found]

theorem step_kept {pool : Pool S α} {turn : Turn S α} (kept : pool.Kept K post) (allowed : pool.Allowed K post turn) :
    (pool.step turn).Kept K post := by
  obtain ⟨inv, holds⟩ := kept
  cases turn with
  | start p =>
    refine ⟨inv, fun q mem => ?_⟩
    rcases List.mem_append.1 mem with under | new
    · exact holds q under
    · rw [List.mem_singleton.1 new]
      exact allowed pool.state inv
  | next place =>
    cases found : pool.running[place]? with
    | none =>
      simp only [step, found]
      exact ⟨inv, holds⟩
    | some p =>
      have mine : K.Holds post p pool.state := holds p (List.mem_of_getElem? found)
      rw [step_next found]
      cases p with
      | done answer =>
        refine ⟨inv, fun q mem => ?_⟩
        rcases List.mem_or_eq_of_mem_set mem with other | rfl
        · exact holds q other
        · exact mine
      | call c rest =>
        obtain ⟨invAfter, grown, later⟩ := mine pool.state (K.refl _) inv (allowed _ found c rfl)
        refine ⟨invAfter, fun q mem => ?_⟩
        rcases List.mem_or_eq_of_mem_set mem with other | rfl
        · exact (holds q other).mono grown
        · exact later

/-- However the turns fall, the contract is kept. -/
theorem run_kept {pool : Pool S α} {turns : List (Turn S α)} (kept : pool.Kept K post)
    (allowed : Meets step (Allowed K post) pool turns) : (run step pool turns).Kept K post :=
  run_invariant step (Kept K post) kept (fun _ _ kept allowed => step_kept kept allowed) allowed

/-- And what a finished program answered is so. -/
theorem answered {pool : Pool S α} (kept : pool.Kept K post) {p : Program S α} {answer : α} (mem : p ∈ pool.running)
    (finished : p.answer? = some answer) : post answer pool.state := by
  cases p with
  | done value =>
    cases finished
    exact kept.2 _ mem pool.state (K.refl _) kept.1
  | call c rest => cases finished

end Pool

end Rules

end ToolArtifactRegistry.Library.Programs
