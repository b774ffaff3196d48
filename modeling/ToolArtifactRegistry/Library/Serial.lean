import Mathlib.Data.List.Permutation
import ToolArtifactRegistry.Library.Looking

/-! Programs that read, write and report. When none writes while another is between its first reading and its
last write, any interleaving of them leaves what serving them one after the other leaves. -/
namespace ToolArtifactRegistry.Library.Programs

open Library.Runs

/-- What a call is for: the first reading, what is weighed in between, a write, or the report afterwards. -/
inductive Phase where
  | load
  | weigh
  | write
  | report
  deriving DecidableEq

variable {S : System} {α : Type}

/-- The phases of a system's calls; only a write changes anything. -/
structure Phases (S : System) where
  phase : S.Call → Phase
  quiet : ∀ c s, phase c ≠ .write → (S.perform c s).2 = s

namespace Program

variable (P : Phases S) (failed : α → Prop)

/-- Nothing but reports from here on. -/
def Reports : Program S α → Prop
  | done _ => True
  | call c rest => P.phase c = .report ∧ ∀ reply, (rest reply).Reports

/-- A program that has begun to write: it writes and weighs, and then reports. -/
def Commits : Program S α → Prop
  | done _ => True
  | call c rest => ((P.phase c = .write ∨ P.phase c = .weigh) ∧ ∀ reply, (rest reply).Commits) ∨
      (P.phase c = .report ∧ ∀ reply, (rest reply).Reports P)

/-- A program that has read and not yet written; one that ends here has failed. -/
def Weighs : Program S α → Prop
  | done answer => failed answer
  | call c rest => (P.phase c = .weigh ∧ ∀ reply, (rest reply).Weighs) ∨
      (P.phase c = .write ∧ ∀ reply, (rest reply).Commits P)

/-- An update from its beginning. -/
def Updates : Program S α → Prop
  | done answer => failed answer
  | call c rest => P.phase c = .load ∧ ∀ reply, (rest reply).Weighs P failed

variable {P failed}

theorem Reports.finish {p : Program S α} (reports : p.Reports P) (s : S.State) : (p.finish s).2 = s := by
  induction p generalizing s with
  | done answer => rfl
  | call c rest ih =>
    have same := P.quiet c s (by rw [reports.1]; decide)
    rw [finish_call, ih _ (reports.2 _), same]

/-- What has begun to write and does not merely report is about to write or to weigh. -/
theorem Commits.busy {p : Program S α} (commits : p.Commits P) (unfinished : ¬ p.Reports P) :
    ∃ c rest, p = call c rest ∧ (P.phase c = .write ∨ P.phase c = .weigh) ∧ ∀ reply, (rest reply).Commits P := by
  cases p with
  | done answer => exact absurd trivial unfinished
  | call c rest =>
    rcases commits with ⟨busy, later⟩ | reports
    · exact ⟨c, rest, rfl, busy, later⟩
    · exact absurd reports unfinished

/-- Serving programs one after the other. -/
def serve (programs : List (Program S α)) (s : S.State) : S.State := programs.foldl (fun s p => (p.finish s).2) s

theorem serve_append (first second : List (Program S α)) (s : S.State) :
    serve (first ++ second) s = serve second (serve first s) := List.foldl_append

end Program

namespace Pool

variable (P : Phases S)

/-- A write is made while no other program is between its first reading and its last write. -/
def Clear (pool : Pool S α) : Turn S α → Prop
  | .start _ => True
  | .next place => ∀ c, pool.Calls place c → P.phase c = .write → ∀ (other : Nat) d, other ≠ place →
      pool.Calls other d → P.phase d = .load ∨ P.phase d = .report

/-- Whether a turn is clear. -/
def clears (pool : Pool S α) (place : Nat) : Bool :=
  (pool.running[place]?.bind Program.next?).all (fun c => P.phase c != .write ||
    pool.running.zipIdx.all (fun entry => entry.2 == place ||
      entry.1.next?.all (fun d => P.phase d == .load || P.phase d == .report)))

/-- Whether all of these turns are clear. -/
def clearsAll : Pool S α → List Nat → Bool
  | _, [] => true
  | pool, place :: rest => pool.clears P place && (pool.step (.next place)).clearsAll rest

theorem clear_of_clears {pool : Pool S α} {place : Nat} (clears : pool.clears P place = true) :
    pool.Clear P (.next place) := by
  intro c calls writes other d apart otherCalls
  obtain ⟨p, found, next⟩ := calls
  obtain ⟨q, foundOther, nextOther⟩ := otherCalls
  have listed : (q, other) ∈ pool.running.zipIdx := List.mk_mem_zipIdx_iff_getElem?.2 foundOther
  simp only [Pool.clears, found, Option.bind_some, next, Option.all_some, Bool.or_eq_true, bne_iff_ne, writes, ne_eq,
    not_true_eq_false, false_or, List.all_eq_true] at clears
  simpa [apart, nextOther] using clears _ listed

theorem meets_clear {pool : Pool S α} {places : List Nat} (clears : pool.clearsAll P places = true) :
    Meets Pool.step (fun pool turn => (∃ place, turn = .next place) ∧ pool.Clear P turn) pool (places.map .next) := by
  induction places generalizing pool with
  | nil => trivial
  | cons place rest ih =>
    obtain ⟨here, later⟩ := Bool.and_eq_true_iff.1 clears
    exact ⟨⟨⟨place, rfl⟩, clear_of_clears P here⟩, ih later⟩

variable (failed : α → Prop)

/-- Where a program stands: `order` are those that have written, `writer` the one that is writing, and `base`
the state it began to write in. -/
inductive Stage (order : List Nat) (writer : Option Nat) (base state : S.State) (place : Nat) (origin : Program S α) :
    Program S α → Prop
  | waiting (updates : origin.Updates P failed) (fresh : place ∉ order) (idle : writer ≠ some place) :
      Stage order writer base state place origin origin
  | refused (answer : α) (fails : failed answer) (fresh : place ∉ order) (idle : writer ≠ some place) :
      Stage order writer base state place origin (.done answer)
  | weighing (c : S.Call) (rest : S.Reply c → Program S α) (weighs : (Program.call c rest).Weighs P failed)
      (same : (Program.call c rest).finish state = origin.finish state) (fresh : place ∉ order)
      (idle : writer ≠ some place) : Stage order writer base state place origin (.call c rest)
  | writing (current : Program S α) (commits : current.Commits P) (unfinished : ¬ current.Reports P)
      (same : current.finish state = origin.finish base) (fresh : place ∉ order) (busy : writer = some place) :
      Stage order writer base state place origin current
  | written (current : Program S α) (reports : current.Reports P) (mem : place ∈ order) (idle : writer ≠ some place) :
      Stage order writer base state place origin current

/-- What serving in order comes to so far. -/
structure Ordered (origins : List (Program S α)) (start : S.State) (order : List Nat) (writer : Option Nat) (base : S.State)
    (pool : Pool S α) : Prop where
  served : base = Program.serve (order.filterMap (fun place => origins[place]?)) start
  settled : writer = none → pool.state = base
  nodup : order.Nodup
  length : pool.running.length = origins.length
  present : ∀ place, writer = some place → place < origins.length
  stages : ∀ (place : Nat) origin current, origins[place]? = some origin → pool.running[place]? = some current →
    Stage P failed order writer base pool.state place origin current

variable {P failed} {origins : List (Program S α)} {start : S.State}

theorem ordered_start (updates : ∀ origin ∈ origins, origin.Updates P failed) :
    Ordered P failed origins start [] none start ⟨start, origins⟩ where
  served := rfl
  settled _ := rfl
  nodup := List.nodup_nil
  length := rfl
  present := nofun
  stages := by
    intro place origin current listed running
    obtain rfl := Option.some.inj (listed.symm.trans running)
    exact .waiting (updates _ (List.mem_of_getElem? listed)) List.not_mem_nil (by simp)

/-- A program elsewhere stands where it stood, as long as nothing it has read has changed. -/
theorem Stage.elsewhere {order order' : List Nat} {writer writer' : Option Nat} {base base' state state' : S.State}
    {other place : Nat} {origin current : Program S α} (stage : Stage P failed order writer base state other origin current)
    (apart : other ≠ place) (idle : writer ≠ some other) (idle' : writer' ≠ some other)
    (grown : order' = order ∨ order' = order ++ [place])
    (steady : ∀ c, current.next? = some c → P.phase c = .weigh ∨ P.phase c = .write → state' = state) :
    Stage P failed order' writer' base' state' other origin current := by
  have same : other ∈ order' ↔ other ∈ order := by
    rcases grown with rfl | rfl
    · exact Iff.rfl
    · simp [apart]
  cases stage with
  | waiting updates fresh _ => exact .waiting updates (mt same.1 fresh) idle'
  | refused answer fails fresh _ => exact .refused answer fails (mt same.1 fresh) idle'
  | weighing c rest weighs finishes fresh _ =>
    have kept : state' = state := steady c rfl (weighs.imp And.left And.left)
    exact .weighing c rest weighs (kept ▸ finishes) (mt same.1 fresh) idle'
  | writing _ _ _ _ _ busy => exact absurd busy idle
  | written _ reports mem _ => exact .written _ reports (same.2 mem) idle'

section Step

variable {order : List Nat} {writer : Option Nat} {base : S.State} {pool : Pool S α} {place : Nat} {c : S.Call}
  {rest : S.Reply c → Program S α}

/-- One call: the program that made it stands where it says, the others where they stood. -/
theorem Ordered.called (ordered : Ordered P failed origins start order writer base pool)
    (here : pool.running[place]? = some (.call c rest)) {order' : List Nat} {writer' : Option Nat} {base' : S.State}
    (idle : ∀ other, other ≠ place → writer ≠ some other) (idle' : ∀ other, other ≠ place → writer' ≠ some other)
    (grown : order' = order ∨ order' = order ++ [place])
    (steady : ∀ (other : Nat) d, other ≠ place → pool.Calls other d → P.phase d = .weigh ∨ P.phase d = .write →
      (S.perform c pool.state).2 = pool.state)
    (served : base' = Program.serve (order'.filterMap (fun place => origins[place]?)) start)
    (settled : writer' = none → (S.perform c pool.state).2 = base') (nodup : order'.Nodup)
    (present : ∀ other, writer' = some other → other < origins.length)
    (own : ∀ origin, origins[place]? = some origin →
      Stage P failed order' writer' base' (S.perform c pool.state).2 place origin (rest (S.perform c pool.state).1)) :
    Ordered P failed origins start order' writer' base' (pool.step (.next place)) := by
  rw [step_next here]
  refine ⟨served, settled, nodup, by rw [← ordered.length]; exact List.length_set, present, ?_⟩
  intro other origin current listed running
  change (pool.running.set place (rest (S.perform c pool.state).1))[other]? = some current at running
  by_cases same : place = other
  · subst same
    rw [List.getElem?_set_self (List.getElem?_eq_some_iff.1 here).1] at running
    obtain rfl := Option.some.inj running
    exact own origin listed
  · rw [List.getElem?_set_ne same] at running
    exact (ordered.stages other origin current listed running).elsewhere (Ne.symm same) (idle other (Ne.symm same))
      (idle' other (Ne.symm same)) grown (fun d next => steady other d (Ne.symm same) ⟨current, running, next⟩)

/-- A call of a program that has begun to write: it goes on, or it has written. -/
theorem Ordered.commits (ordered : Ordered P failed origins start order writer base pool)
    (here : pool.running[place]? = some (.call c rest)) {origin : Program S α} (listed : origins[place]? = some origin)
    (idle : ∀ other, other ≠ place → writer ≠ some other)
    (steady : ∀ (other : Nat) d, other ≠ place → pool.Calls other d → P.phase d = .weigh ∨ P.phase d = .write →
      (S.perform c pool.state).2 = pool.state)
    (fresh : place ∉ order) (commits : (rest (S.perform c pool.state).1).Commits P)
    (same : (Program.call c rest).finish pool.state = origin.finish base) :
    ∃ order' writer' base', Ordered P failed origins start order' writer' base' (pool.step (.next place)) := by
  have sole : ∀ other, other ≠ place → some place ≠ some other := fun other apart met => apart (Option.some.inj met).symm
  have finishes : (rest (S.perform c pool.state).1).finish (S.perform c pool.state).2 = origin.finish base := by
    rw [← same, Program.finish_call]
  by_cases reports : (rest (S.perform c pool.state).1).Reports P
  · -- it has written: serving it was the last thing that happened
    have reached : (S.perform c pool.state).2 = (origin.finish base).2 := by rw [← finishes, reports.finish]
    refine ⟨order ++ [place], none, (S.perform c pool.state).2, ordered.called here idle (fun _ _ => nofun) (Or.inr rfl)
      steady ?_ (fun _ => rfl) ?_ nofun ?_⟩
    · rw [List.filterMap_append, Program.serve_append, ← ordered.served, reached]
      simp [listed, Program.serve]
    · rw [List.nodup_append]
      exact ⟨ordered.nodup, by simp, by simpa using fun other mem => ne_of_mem_of_not_mem mem fresh⟩
    · exact fun _ _ => .written _ reports (by simp) nofun
  · refine ⟨order, some place, base, ordered.called here idle sole (Or.inl rfl) steady ordered.served nofun ordered.nodup ?_ ?_⟩
    · exact fun other met => Option.some.inj met ▸ (List.getElem?_eq_some_iff.1 listed).1
    · intro origin' listed'
      obtain rfl := Option.some.inj (listed.symm.trans listed')
      exact .writing _ commits reports finishes fresh rfl

/-- A call that writes nothing leaves the others and the order as they were. -/
theorem Ordered.read (ordered : Ordered P failed origins start order writer base pool)
    (here : pool.running[place]? = some (.call c rest)) (reads : P.phase c ≠ .write)
    (own : ∀ origin, origins[place]? = some origin →
      Stage P failed order writer base pool.state place origin (rest (S.perform c pool.state).1)) :
    Ordered P failed origins start order writer base (pool.step (.next place)) := by
  rw [step_next here]
  change Ordered P failed origins start order writer base
    ⟨(S.perform c pool.state).2, pool.running.set place (rest (S.perform c pool.state).1)⟩
  rw [P.quiet c pool.state reads]
  refine ⟨ordered.served, ordered.settled, ordered.nodup, by rw [← ordered.length]; exact List.length_set,
    ordered.present, ?_⟩
  intro other origin current listed running
  by_cases same : place = other
  · subst same
    rw [List.getElem?_set_self (List.getElem?_eq_some_iff.1 here).1] at running
    exact Option.some.inj running ▸ own origin listed
  · rw [List.getElem?_set_ne same] at running
    exact ordered.stages other origin current listed running

/-- A program that has read: it goes on weighing, or it has failed. -/
theorem Stage.of_weighs {state : S.State} {origin current : Program S α} (weighs : current.Weighs P failed)
    (same : current.finish state = origin.finish state) (fresh : place ∉ order) (idle : writer ≠ some place) :
    Stage P failed order writer base state place origin current := by
  cases current with
  | done answer => exact .refused answer weighs fresh idle
  | call c rest => exact .weighing c rest weighs same fresh idle

/-- The one that is writing is about to write or to weigh. -/
theorem Ordered.writing (ordered : Ordered P failed origins start order writer base pool) {busy : Nat}
    (writes : writer = some busy) : ∃ d, pool.Calls busy d ∧ (P.phase d = .write ∨ P.phase d = .weigh) := by
  have inside := ordered.present busy writes
  have running : busy < pool.running.length := ordered.length ▸ inside
  have stage := ordered.stages busy _ _ (List.getElem?_eq_getElem inside) (List.getElem?_eq_getElem running)
  generalize origins[busy] = origin at stage
  generalize found : pool.running[busy] = current at stage
  have listed : pool.running[busy]? = some current := found ▸ List.getElem?_eq_getElem running
  cases stage with
  | writing _ commits unfinished _ _ _ =>
    obtain ⟨d, later, same, phase, _⟩ := commits.busy unfinished
    exact ⟨d, ⟨current, listed, by rw [same]; rfl⟩, phase⟩
  | waiting _ _ idle => exact absurd writes idle
  | refused _ _ _ idle => exact absurd writes idle
  | weighing _ _ _ _ _ idle => exact absurd writes idle
  | written _ _ _ idle => exact absurd writes idle

theorem ordered_next (ordered : Ordered P failed origins start order writer base pool) (clear : pool.Clear P (.next place)) :
    ∃ order' writer' base', Ordered P failed origins start order' writer' base' (pool.step (.next place)) := by
  cases here : pool.running[place]? with
  | none =>
    simp only [step, here]
    exact ⟨order, writer, base, ordered⟩
  | some p =>
    cases p with
    | done answer => exact ⟨order, writer, base, by rw [step_done here]; exact ordered⟩
    | call c rest =>
      have inside : place < origins.length := ordered.length ▸ (List.getElem?_eq_some_iff.1 here).1
      obtain ⟨origin, listed⟩ : ∃ origin, origins[place]? = some origin := ⟨_, List.getElem?_eq_getElem inside⟩
      have sole : ∀ stage : Program S α → Prop, (∀ origin', origins[place]? = some origin' → stage origin') ↔ stage origin :=
        fun _ => ⟨fun all => all origin listed, fun one _ listed' => Option.some.inj (listed.symm.trans listed') ▸ one⟩
      -- the others have read nothing that a write of this one could change
      have steady : P.phase c = .write → ∀ (other : Nat) d, other ≠ place → pool.Calls other d →
          ¬ (P.phase d = .weigh ∨ P.phase d = .write) := by
        intro writes other d apart calls busy
        rcases clear c ⟨_, here, rfl⟩ writes other d apart calls with load | report <;> rcases busy with weigh | write <;>
          simp_all
      have onward : (rest (S.perform c pool.state).1).finish (S.perform c pool.state).2 =
          (Program.call c rest).finish pool.state := rfl
      have stage := ordered.stages place origin _ listed here
      generalize met : Program.call c rest = current at stage
      cases stage with
      | waiting updates fresh idle =>
        subst met
        have reads : P.phase c ≠ .write := by rw [updates.1]; decide
        refine ⟨order, writer, base, ordered.read here reads ((sole _).2 (.of_weighs (updates.2 _) ?_ fresh idle))⟩
        rw [P.quiet c pool.state reads] at onward
        exact onward
      | refused answer fails fresh idle => cases met
      | weighing c' rest' weighs same fresh idle =>
        cases met
        rcases weighs with ⟨weigh, later⟩ | ⟨write, later⟩
        · have reads : P.phase c ≠ .write := by rw [weigh]; decide
          refine ⟨order, writer, base, ordered.read here reads ((sole _).2 (.of_weighs (later _) ?_ fresh idle))⟩
          rw [P.quiet c pool.state reads] at onward
          exact onward.trans same
        · -- it begins to write, and nobody else is writing
          have none_ : writer = none := by
            cases writes : writer with
            | none => rfl
            | some busy =>
              obtain ⟨d, calls, phase⟩ := ordered.writing writes
              exact absurd phase.symm (steady write busy d (fun met => idle (met ▸ writes)) calls)
          refine ordered.commits here listed (by simp [none_]) (fun other d apart calls busy =>
            absurd busy (steady write other d apart calls)) fresh (later _) ?_
          rw [same, ordered.settled none_]
      | writing _ commits unfinished same fresh busy =>
        subst met
        obtain ⟨d, later, same', phase, kept⟩ := commits.busy unfinished
        cases same'
        refine ordered.commits here listed (fun other apart met => apart (Option.some.inj (busy.symm.trans met)).symm)
          ?_ fresh (kept _) same
        intro other d apart calls middle
        rcases phase with write | weigh
        · exact absurd middle (steady write other d apart calls)
        · exact P.quiet c pool.state (by rw [weigh]; decide)
      | written _ reports mem idle =>
        subst met
        have reads : P.phase c ≠ .write := by rw [reports.1]; decide
        exact ⟨order, writer, base, ordered.read here reads ((sole _).2 (.written _ (reports.2 _) mem idle))⟩

end Step

theorem run_ordered {pool : Pool S α} {turns : List (Turn S α)} {order : List Nat} {writer : Option Nat} {base : S.State}
    (ordered : Ordered P failed origins start order writer base pool)
    (clear : Meets Pool.step (fun pool turn => (∃ place, turn = .next place) ∧ pool.Clear P turn) pool turns) :
    ∃ order' writer' base', Ordered P failed origins start order' writer' base' (run Pool.step pool turns) :=
  run_invariant Pool.step (fun pool => ∃ order writer base, Ordered P failed origins start order writer base pool)
    ⟨order, writer, base, ordered⟩
    (fun _ _ ordered both => by
      obtain ⟨order, writer, base, ordered⟩ := ordered
      obtain ⟨⟨place, rfl⟩, clear⟩ := both
      exact ordered_next ordered clear) clear

/-- When all are done, the state is that of serving, one after the other, those that did not fail and perhaps
some that did. -/
theorem run_served {start : S.State} {turns : List (Turn S α)} (updates : ∀ origin ∈ origins, origin.Updates P failed)
    (clear : Meets Pool.step (fun pool turn => (∃ place, turn = .next place) ∧ pool.Clear P turn) ⟨start, origins⟩ turns)
    (finished : ∀ p ∈ (run Pool.step ⟨start, origins⟩ turns).running, p.next? = none) :
    ∃ order : List Nat, order.Nodup ∧
      (run Pool.step ⟨start, origins⟩ turns).state = Program.serve (order.filterMap (fun place => origins[place]?)) start ∧
      ∀ (place : Nat) answer, (run Pool.step ⟨start, origins⟩ turns).running[place]? = some (.done answer) →
        ¬ failed answer → place ∈ order := by
  obtain ⟨order, writer, base, ordered⟩ := run_ordered (ordered_start updates) clear
  generalize run Pool.step ⟨start, origins⟩ turns = pool at finished ordered
  have quiet : ∀ (place : Nat) c, ¬ pool.Calls place c := fun place c ⟨p, running, next⟩ => by
    simp [finished p (List.mem_of_getElem? running)] at next
  have idle : writer = none := by
    cases writes : writer with
    | none => rfl
    | some busy =>
      obtain ⟨d, calls, _⟩ := ordered.writing writes
      exact absurd calls (quiet busy d)
  refine ⟨order, ordered.nodup, (ordered.settled idle).trans ordered.served, ?_⟩
  intro place answer running answered
  have inside : place < origins.length := ordered.length ▸ (List.getElem?_eq_some_iff.1 running).1
  have stage := ordered.stages place _ _ (List.getElem?_eq_getElem inside) running
  generalize origins[place] = origin at stage
  generalize met : Program.done answer = current at stage
  cases stage with
  | waiting updates _ _ => subst met; exact absurd updates answered
  | refused answer fails _ _ => cases met; exact absurd fails answered
  | weighing c rest _ _ _ _ => cases met
  | writing _ _ unfinished _ _ _ => subst met; exact absurd trivial unfinished
  | written _ _ mem _ => exact mem

/-- When all are done and none has failed, the state is that of serving them all in some order. -/
theorem run_serial {start : S.State} {turns : List (Turn S α)} {answers : List α}
    (updates : ∀ origin ∈ origins, origin.Updates P failed)
    (clear : Meets Pool.step (fun pool turn => (∃ place, turn = .next place) ∧ pool.Clear P turn) ⟨start, origins⟩ turns)
    (finished : (run Pool.step ⟨start, origins⟩ turns).running = answers.map .done)
    (succeeded : ∀ answer ∈ answers, ¬ failed answer) (all : answers.length = origins.length) :
    ∃ order : List Nat, order.Perm (List.range origins.length) ∧
      (run Pool.step ⟨start, origins⟩ turns).state = Program.serve (order.filterMap (fun place => origins[place]?)) start := by
  have idle : ∀ p ∈ (run Pool.step ⟨start, origins⟩ turns).running, p.next? = none := by
    intro p mem
    rw [finished] at mem
    obtain ⟨answer, -, rfl⟩ := List.mem_map.1 mem
    rfl
  obtain ⟨order, nodup, reached, done⟩ := run_served updates clear idle
  refine ⟨order.filter (· < origins.length), ?_, ?_⟩
  · refine (List.perm_ext_iff_of_nodup (nodup.filter _) List.nodup_range).2 (fun place => ?_)
    rw [List.mem_filter, List.mem_range, decide_eq_true_iff]
    refine ⟨And.right, fun inside => ⟨?_, inside⟩⟩
    have here : place < answers.length := all ▸ inside
    refine done place answers[place] ?_ (succeeded _ (List.getElem_mem here))
    rw [finished, List.getElem?_map, List.getElem?_eq_getElem here, Option.map_some]
  · rw [reached, List.filterMap_filter]
    refine congrArg (fun programs => Program.serve programs start) (List.filterMap_congr (fun place _ => ?_))
    by_cases inside : place < origins.length
    · simp [inside]
    · simp [inside]

end Pool

end ToolArtifactRegistry.Library.Programs
