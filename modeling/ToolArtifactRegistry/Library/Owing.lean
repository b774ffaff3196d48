import ToolArtifactRegistry.Library.Looking

/-! Programs that act on what they have checked. What a call uses was found by a check some calls before, and
the others may come in between: the program owes it to them that it still is so. Two systems over one state are
put together, so that programs of both can run among each other. -/
namespace ToolArtifactRegistry.Library.Programs

open Library.Runs

variable {S : System} {α β κ : Type}

/-- Which calls are made at all, what every state keeps, when a thing relied on holds, which call uses it, and
which calls check. -/
structure Watch (S : System) (κ : Type) where
  fit : S.Call → Prop
  inv : S.State → Prop
  holds : κ → S.State → Prop
  uses : S.Call → κ → Prop
  checks : S.Call → Prop

namespace Program

/-- Every call the program may make, whatever it is answered. -/
def Each (good : S.Call → Prop) : Program S α → Prop
  | .done _ => True
  | .call c rest => good c ∧ ∀ reply, (rest reply).Each good

variable (W : Watch S κ)

/-- The program may still use this before it checks again. -/
def Owes : Program S α → κ → Prop
  | .done _, _ => False
  | .call c rest, k => W.uses c k ∨ (¬ W.checks c ∧ ∃ reply, (rest reply).Owes k)

/-- What the program uses after a check is what the check has just found. -/
def Checked : Program S α → Prop
  | .done _ => True
  | .call c rest => ∀ s, W.inv s → (W.checks c → ∀ k, (rest (S.perform c s).1).Owes W k → W.holds k (S.perform c s).2) ∧
      (rest (S.perform c s).1).Checked

/-- A program that checks before it uses anything. -/
structure Wary (p : Program S α) : Prop where
  fits : p.Each W.fit
  checked : p.Checked W
  free : ∀ k, ¬ p.Owes W k

variable {W} {p : Program S α}

theorem Each.mono {good better : S.Call → Prop} (each : p.Each good) (implies : ∀ c, good c → better c) :
    p.Each better := by
  induction p with
  | done answer => trivial
  | call c rest ih => exact ⟨implies c each.1, fun reply => ih reply (each.2 reply)⟩

/-- A program whose calls use nothing owes nothing. -/
theorem not_owes_of_each {k : κ} (each : p.Each (fun c => ¬ W.uses c k)) : ¬ p.Owes W k := by
  induction p with
  | done answer => exact fun owes => owes
  | call c rest ih =>
    intro owes
    rcases owes with uses | later
    · exact each.1 uses
    · obtain ⟨_, reply, owes⟩ := later
      exact ih reply (each.2 reply) owes

theorem checked_of_each (each : p.Each (fun c => ∀ k, ¬ W.uses c k)) : p.Checked W := by
  induction p with
  | done answer => trivial
  | call c rest ih =>
    intro s _
    refine ⟨fun _ k owes => ?_, ih _ (each.2 _)⟩
    exact absurd owes (not_owes_of_each ((each.2 _).mono (fun _ unused => unused k)))

theorem wary_of_each (each : p.Each (fun c => W.fit c ∧ ∀ k, ¬ W.uses c k)) : p.Wary W where
  fits := each.mono (fun _ both => both.1)
  checked := checked_of_each (each.mono (fun _ both => both.2))
  free k := not_owes_of_each (each.mono (fun _ both => both.2 k))

theorem wary_done (answer : α) : (done answer : Program S α).Wary W := ⟨trivial, trivial, fun _ owes => owes⟩

theorem not_owes_call {c : S.Call} {rest : S.Reply c → Program S α} {k : κ} (unused : ¬ W.uses c k)
    (later : ∀ reply, ¬ (rest reply).Owes W k) : ¬ (call c rest).Owes W k := by
  intro owes
  rcases owes with uses | further
  · exact unused uses
  · obtain ⟨_, reply, owes⟩ := further
    exact later reply owes

theorem checked_call {c : S.Call} {rest : S.Reply c → Program S α} (blind : ¬ W.checks c)
    (found : ∀ s, W.inv s → (rest (S.perform c s).1).Checked W) : (call c rest).Checked W :=
  fun s inv => ⟨fun checks => absurd checks blind, found s inv⟩

/-- A program that checks next owes nothing yet. -/
theorem not_owes_check {c : S.Call} {rest : S.Reply c → Program S α} {k : κ} (checks : W.checks c) (unused : ¬ W.uses c k) :
    ¬ (call c rest).Owes W k := by
  intro owes
  rcases owes with uses | further
  · exact unused uses
  · exact further.1 checks

/-- A call that uses nothing, before a program that is wary whatever it is answered. -/
theorem wary_call {c : S.Call} {rest : S.Reply c → Program S α} (fits : W.fit c) (unused : ∀ k, ¬ W.uses c k)
    (each : ∀ reply, (rest reply).Wary W) : (call c rest).Wary W where
  fits := ⟨fits, fun reply => (each reply).fits⟩
  checked _ _ := ⟨fun _ k owes => absurd owes ((each _).free k), (each _).checked⟩
  free k := not_owes_call (unused k) (fun reply => (each reply).free k)

end Program

namespace Pool

variable (W : Watch S κ)

/-- No call takes from a program under way what it may still use. -/
def Mindful (pool : Pool S α) : Turn S α → Prop
  | .start p => p.Wary W
  | .next place => ∀ c, pool.Calls place c → W.inv pool.state → (∀ k, W.uses c k → W.holds k pool.state) →
      W.fit c → W.inv (S.perform c pool.state).2 ∧
      ∀ p ∈ pool.running, ∀ k, p.Owes W k → W.holds k pool.state → W.holds k (S.perform c pool.state).2

/-- What is kept is so, and so is all that a program under way may still use. -/
structure Honest (pool : Pool S α) : Prop where
  inv : W.inv pool.state
  fits : ∀ p ∈ pool.running, p.Each W.fit
  checked : ∀ p ∈ pool.running, p.Checked W
  owed : ∀ p ∈ pool.running, ∀ k, p.Owes W k → W.holds k pool.state

variable {W}

theorem honest_empty {s : S.State} (inv : W.inv s) : (⟨s, []⟩ : Pool S α).Honest W :=
  ⟨inv, fun _ mem => (nomatch mem), fun _ mem => (nomatch mem), fun _ mem => (nomatch mem)⟩

theorem Honest.start {pool : Pool S α} (honest : pool.Honest W) {p : Program S α}
    (mindful : pool.Mindful W (.start p)) : (pool.step (.start p)).Honest W := by
  refine ⟨honest.inv, fun q mem => ?_, fun q mem => ?_, fun q mem k owes => ?_⟩
  · rcases List.mem_append.1 mem with under | new
    · exact honest.fits q under
    · rw [List.mem_singleton.1 new]
      exact mindful.fits
  · rcases List.mem_append.1 mem with under | new
    · exact honest.checked q under
    · rw [List.mem_singleton.1 new]
      exact mindful.checked
  · rcases List.mem_append.1 mem with under | new
    · exact honest.owed q under k owes
    · rw [List.mem_singleton.1 new] at owes
      exact absurd owes (mindful.free k)

/-- One call: its own program goes on with what it has found, the others with what they have found before. -/
theorem Honest.called {pool : Pool S α} (honest : pool.Honest W) {place : Nat} {c : S.Call}
    {rest : S.Reply c → Program S α} (here : pool.running[place]? = some (.call c rest))
    (mindful : pool.Mindful W (.next place)) :
    (⟨(S.perform c pool.state).2, pool.running.set place (rest (S.perform c pool.state).1)⟩ : Pool S α).Honest W := by
  have mem : Program.call c rest ∈ pool.running := List.mem_of_getElem? here
  have used : ∀ k, W.uses c k → W.holds k pool.state := fun k uses => honest.owed _ mem k (.inl uses)
  obtain ⟨kept, spared⟩ := mindful c ⟨_, here, rfl⟩ honest.inv used (honest.fits _ mem).1
  obtain ⟨found, checked⟩ := honest.checked _ mem pool.state honest.inv
  refine ⟨kept, fun q inside => ?_, fun q inside => ?_, fun q inside k owes => ?_⟩
  · rcases List.mem_or_eq_of_mem_set inside with other | rfl
    · exact honest.fits q other
    · exact (honest.fits _ mem).2 _
  · rcases List.mem_or_eq_of_mem_set inside with other | rfl
    · exact honest.checked q other
    · exact checked
  · rcases List.mem_or_eq_of_mem_set inside with other | rfl
    · exact spared q other k owes (honest.owed q other k owes)
    · by_cases looks : W.checks c
      · exact found looks k owes
      · have before : (Program.call c rest).Owes W k := .inr ⟨looks, _, owes⟩
        exact spared _ mem k before (honest.owed _ mem k before)

theorem Honest.next {pool : Pool S α} (honest : pool.Honest W) {place : Nat}
    (mindful : pool.Mindful W (.next place)) : (pool.step (.next place)).Honest W := by
  cases here : pool.running[place]? with
  | none =>
    simp only [step, here]
    exact honest
  | some p =>
    rw [step_next here]
    cases p with
    | call c rest => exact honest.called here mindful
    | done answer =>
      rw [← step_next here, step_done here]
      exact honest

/-- However the turns fall, no call uses what is no longer so. -/
theorem run_honest {pool : Pool S α} {turns : List (Turn S α)} (honest : pool.Honest W)
    (mindful : Meets Pool.step (Mindful W) pool turns) : (run Pool.step pool turns).Honest W := by
  refine run_invariant Pool.step (Honest W) honest (fun pool turn honest mindful => ?_) mindful
  cases turn with
  | start p => exact honest.start mindful
  | next place => exact honest.next mindful

end Pool

section Both

/-- Two systems over one state. -/
def System.both (S : System) {C : Type} {R : C → Type} (perform : (c : C) → S.State → R c × S.State) : System where
  State := S.State
  Call := S.Call ⊕ C
  Reply := Sum.elim S.Reply R
  perform
    | .inl c, s => S.perform c s
    | .inr c, s => perform c s

variable {C : Type} {R : C → Type} {perform : (c : C) → S.State → R c × S.State}

/-- The other of the two systems. -/
abbrev System.other (S : System) {C : Type} {R : C → Type} (perform : (c : C) → S.State → R c × S.State) : System :=
  ⟨S.State, C, R, perform⟩

namespace Program

def left : Program S α → Program (S.both perform) (α ⊕ β)
  | .done answer => .done (.inl answer)
  | .call c rest => .call (S := S.both perform) (.inl c) (fun reply => (rest reply).left)

def right : Program (S.other perform) β → Program (S.both perform) (α ⊕ β)
  | .done answer => .done (.inr answer)
  | .call c rest => .call (S := S.both perform) (.inr c) (fun reply => (rest reply).right)

/-- Run alone, a program of one of the two does what it does there. -/
theorem finish_left (p : Program S α) (s : S.State) :
    (p.left : Program (S.both perform) (α ⊕ β)).finish s = (.inl (p.finish s).1, (p.finish s).2) := by
  induction p generalizing s with
  | done answer => rfl
  | call c rest ih => exact ih _ _

theorem finish_right (p : Program (S.other perform) β) (s : S.State) :
    (p.right : Program (S.both perform) (α ⊕ β)).finish s = (.inr (p.finish s).1, (p.finish s).2) := by
  induction p generalizing s with
  | done answer => rfl
  | call c rest ih => exact ih _ _

end Program

variable (W : Watch (S.both perform) κ)

/-- What is watched of the one system, and of the other. -/
def Watch.left : Watch S κ where
  fit c := W.fit (.inl c)
  inv := W.inv
  holds := W.holds
  uses c := W.uses (.inl c)
  checks c := W.checks (.inl c)

def Watch.right : Watch (S.other perform) κ where
  fit c := W.fit (.inr c)
  inv := W.inv
  holds := W.holds
  uses c := W.uses (.inr c)
  checks c := W.checks (.inr c)

namespace Program

variable {W}

theorem owes_left {p : Program S α} {k : κ} : (p.left : Program (S.both perform) (α ⊕ β)).Owes W k ↔ p.Owes W.left k := by
  induction p with
  | done answer => exact Iff.rfl
  | call c rest ih => exact or_congr Iff.rfl (and_congr Iff.rfl (exists_congr ih))

theorem owes_right {p : Program (S.other perform) β} {k : κ} :
    (p.right : Program (S.both perform) (α ⊕ β)).Owes W k ↔ p.Owes W.right k := by
  induction p with
  | done answer => exact Iff.rfl
  | call c rest ih => exact or_congr Iff.rfl (and_congr Iff.rfl (exists_congr ih))

theorem Wary.left {p : Program S α} (wary : p.Wary W.left) : (p.left : Program (S.both perform) (α ⊕ β)).Wary W := by
  refine ⟨?_, ?_, fun k owes => wary.free k (owes_left.1 owes)⟩
  · have fits := wary.fits
    clear wary
    induction p with
    | done answer => trivial
    | call c rest ih => exact ⟨fits.1, fun reply => ih reply (fits.2 reply)⟩
  · have checked := wary.checked
    clear wary
    induction p with
    | done answer => trivial
    | call c rest ih =>
      intro s inv
      obtain ⟨found, later⟩ := checked s inv
      exact ⟨fun checks k owes => found checks k (owes_left.1 owes), ih _ later⟩

theorem Wary.right {p : Program (S.other perform) β} (wary : p.Wary W.right) :
    (p.right : Program (S.both perform) (α ⊕ β)).Wary W := by
  refine ⟨?_, ?_, fun k owes => wary.free k (owes_right.1 owes)⟩
  · have fits := wary.fits
    clear wary
    induction p with
    | done answer => trivial
    | call c rest ih => exact ⟨fits.1, fun reply => ih reply (fits.2 reply)⟩
  · have checked := wary.checked
    clear wary
    induction p with
    | done answer => trivial
    | call c rest ih =>
      intro s inv
      obtain ⟨found, later⟩ := checked s inv
      exact ⟨fun checks k owes => found checks k (owes_right.1 owes), ih _ later⟩

end Program

end Both

end ToolArtifactRegistry.Library.Programs
