import ToolArtifactRegistry.Posting
import ToolArtifactRegistry.Laws.Specimen

/-! Every POST goes to a subscription that is enabled, active and at the URL contacted, as long as nothing
suspends, disables, moves or deletes it between the batch being read and the POST. -/
namespace ToolArtifactRegistry.Laws

open Library.Runs ToolArtifactRegistry.Subscriptions

section

variable (policy : RetryPolicy) (later : String → Nat → String)

/-- What is sent comes from the batch that waits. -/
theorem mem_batch_of_sends {bench : Bench} {act : Act} {due : DueDelivery} (sent : bench.sends act = some due) :
    due ∈ bench.batch := by
  cases act with
  | post =>
    simp only [Bench.sends] at sent
    split at sent
    · exact List.mem_of_mem_head? sent
    · cases sent
  | collect now limit => cases sent
  | settle now outcome => cases sent
  | restart => cases sent
  | other move => cases sent

theorem every_post_contactable (before after : List Act) (act : Act) (due : DueDelivery)
    (calm : Meets (Bench.step policy later) (Bench.Undisturbed policy) {} (before ++ act :: after))
    (sent : (run (Bench.step policy later) {} before).sends act = some due) :
    Contactable (run (Bench.step policy later) {} before).queue due := by
  have early := (meets_append (Bench.step policy later)).mp calm
  have current : Bench.Current (run (Bench.step policy later) {} before) :=
    run_invariant (Bench.step policy later) Bench.Current Bench.current_empty
      (fun _ _ held undisturbed => Bench.current_step held undisturbed) early.1
  exact current.waiting due (mem_batch_of_sends sent)

end

section Specimen

def hooked : NewSubscription :=
  ⟨"https://reg.example/instance/1", none, {}, some "https://hook.example", none, none⟩

def matched (id artifact : String) : Act := .other (.enqueue 0 id "2026-01-01" ⟨"s", artifact, none, "produced", .null⟩)

/-- Two matches of one subscription are collected together, and the first POST fails. -/
def oneFails : List Act :=
  [.other (.subscribe "s" "2026-01-01" hooked), matched "d1" "https://reg.example/artifact/1",
    matched "d2" "https://reg.example/artifact/2", .collect "2026-01-02" 50, .post,
    .settle "2026-01-03" (.failed "connection refused" none)]

def unchanging : String → Nat → String := fun now _ => now

theorem impatient_attempts : (1 : Nat) ≤ 8 ∧ (8 : Nat) ≤ 20 := by decide

theorem impatient_suspend : (1 : Nat) ≤ 1 ∧ (1 : Nat) ≤ 500 := by decide

theorem impatient_base : (1 : Nat) ≤ 30 ∧ (30 : Nat) ≤ 3600 := by decide

theorem impatient_ceiling : (1 : Nat) ≤ 21600 ∧ (21600 : Nat) ≤ 604800 := by decide

/-- A subscription is suspended by its first failure. -/
def impatient : RetryPolicy where
  suspendAfter := 1
  attempts := impatient_attempts
  suspend := impatient_suspend
  base := impatient_base
  ceiling := impatient_ceiling

theorem second_post_contactable :
    (run (Bench.step {} unchanging) {} oneFails).sends .post =
        some ⟨2, "d2", "s", "https://hook.example", none, .null, 0⟩ ∧
      Contactable (run (Bench.step {} unchanging) {} oneFails).queue
        ⟨2, "d2", "s", "https://hook.example", none, .null, 0⟩ := by
  have sent : (run (Bench.step {} unchanging) {} oneFails).sends .post =
      some ⟨2, "d2", "s", "https://hook.example", none, .null, 0⟩ := rfl
  have calm : Meets (Bench.step {} unchanging) (Bench.Undisturbed {}) {} (oneFails ++ .post :: []) := by
    have short : failuresOf (run (Bench.step {} unchanging) {} (oneFails.take 5)).queue "s" + 1 < 12 := by decide
    have waiting : (run (Bench.step {} unchanging) {} (oneFails.take 5)).batch.map DueDelivery.subscriptionId = ["s"] := by
      decide
    refine ⟨nofun, nofun, nofun, nofun, fun _ _ => trivial, fun due mem _ _ _ => ?_, fun _ _ => trivial, trivial⟩
    have mine : due.subscriptionId = "s" := by
      have named := List.mem_map_of_mem (f := DueDelivery.subscriptionId) mem
      change due.subscriptionId ∈ (run (Bench.step {} unchanging) {} (oneFails.take 5)).batch.map _ at named
      rw [waiting] at named
      simpa using named
    rw [mine]
    exact short
  exact ⟨sent, every_post_contactable {} unchanging oneFails [] .post _ calm sent⟩

/-- The first failure suspends the subscription, and the second delivery of the batch is posted all the same. -/
theorem suspended_still_posted :
    (run (Bench.step impatient unchanging) {} oneFails).sends .post =
        some ⟨2, "d2", "s", "https://hook.example", none, .null, 0⟩ ∧
      ¬ Contactable (run (Bench.step impatient unchanging) {} oneFails).queue
        ⟨2, "d2", "s", "https://hook.example", none, .null, 0⟩ := by
  refine ⟨rfl, fun contactable => ?_⟩
  obtain ⟨sub, found, _, active, _⟩ := contactable
  have stopped : ((run (Bench.step impatient unchanging) {} oneFails).queue.find? "s").map Subscription.deliveryState =
      some .suspended := by decide
  rw [show (run (Bench.step impatient unchanging) {} oneFails).queue.find? "s" = some sub from found, Option.map_some,
    active] at stopped
  cases stopped

end Specimen

end ToolArtifactRegistry.Laws
