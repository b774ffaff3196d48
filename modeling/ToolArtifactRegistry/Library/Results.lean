import Mathlib.Tactic.Common

/-! Reading a success back: what a block of fallible steps did when it returned a value. -/
namespace ToolArtifactRegistry.Library.Results

variable {Error α β : Type}

theorem bind_ok {first : Except Error α} {next : α → Except Error β} {value : β} :
    (first >>= next) = .ok value ↔ ∃ result, first = .ok result ∧ next result = .ok value := by
  cases first <;> simp [bind, Except.bind]

theorem unit_ok {check : Except Error PUnit} {rest : Except Error β} {value : β} :
    (check >>= fun _ => rest) = .ok value ↔ check = .ok ⟨⟩ ∧ rest = .ok value := by
  rw [bind_ok]
  exact ⟨fun ⟨_, passed, same⟩ => ⟨passed, same⟩, fun ⟨passed, same⟩ => ⟨_, passed, same⟩⟩

/-- A check made under a condition, before the rest of the block. -/
theorem guard_ok {condition : Prop} [Decidable condition] {check : Except Error PUnit} {rest : Except Error β}
    {value : β} :
    (if condition then (check >>= fun _ => rest) else rest) = .ok value ↔
      (condition → check = .ok ⟨⟩) ∧ rest = .ok value := by
  by_cases holds : condition
  · rw [if_pos holds, unit_ok]
    simp [holds]
  · simp [holds]

/-- A check made under a condition is a step like any other. -/
theorem guard_bind {condition : Prop} [Decidable condition] {check : Except Error PUnit} {rest : Except Error β} :
    (if condition then (check >>= fun _ => rest) else rest) =
      ((if condition then check else pure ⟨⟩) >>= fun _ => rest) := by
  by_cases holds : condition
  · rw [if_pos holds, if_pos holds]
  · rw [if_neg holds, if_neg holds]
    rfl

theorem pure_ok {result value : β} : (pure result : Except Error β) = .ok value ↔ result = value := by
  simp [pure, Except.pure]

theorem exists_ok {result : Except Error α} (succeeds : result.toOption.isSome = true) : ∃ value, result = .ok value := by
  cases result with
  | error e => cases succeeds
  | ok value => exact ⟨value, rfl⟩

instance decidableOk [DecidableEq α] (value : α) : (result : Except Error α) → Decidable (result = .ok value)
  | .ok held => decidable_of_iff (held = value) (by simp)
  | .error _ => isFalse nofun

instance decidableForallOk {P : α → Prop} [∀ value, Decidable (P value)] :
    (result : Except Error α) → Decidable (∀ value, result = .ok value → P value)
  | .ok held => decidable_of_iff (P held) (by simp)
  | .error _ => isTrue nofun

instance decidableForallSome {P : α → Prop} [∀ value, Decidable (P value)] :
    (found : Option α) → Decidable (∀ value, found = some value → P value)
  | some held => decidable_of_iff (P held) (by simp)
  | none => isTrue nofun

end ToolArtifactRegistry.Library.Results
