import BoxSearch.Proofs.Except
import BoxSearch.Stopping.Source

/-!
A policy that waits for a fitness.

Such a policy compares numbers. It refuses several objectives wherever their number is shown to it,
and has no other effect: it remembers nothing, calls nobody, and never fails on a number.
-/

namespace BoxSearch.Policy

variable {σ : Type}

section Threshold

variable {α : Type} [Scalar α] {p : Policy σ α} {target : α}

/-- At most one objective, or an unknown number of them, passes. -/
theorem checkObjectives_of_le (rule : p.rule = .threshold target) {nObj : Option Int}
    (few : ∀ n, nObj = some n → n ≤ 1) : p.checkObjectives nObj = .ok () := by
  unfold checkObjectives
  rw [rule]
  cases nObj with
  | none => rfl
  | some n =>
    have small : ¬1 < n := Int.not_lt.mpr (few n rfl)
    exact if_neg small

theorem checkObjectives_of_lt (rule : p.rule = .threshold target) {n : Int} (several : 1 < n) :
    p.checkObjectives (some n) = .error (.configuration (.severalObjectives n)) := by
  unfold checkObjectives
  rw [rule]
  exact if_pos several

theorem le_of_checkObjectives (rule : p.rule = .threshold target) {n : Int}
    (passed : p.checkObjectives (some n) = .ok ()) : n ≤ 1 := by
  refine Int.not_lt.mp fun several => ?_
  rw [checkObjectives_of_lt rule several] at passed
  cases passed

/-- At the start of a run there is nothing but the check. -/
theorem run_start_threshold (rule : p.rule = .threshold target) (clock : Call σ α) (view : View α)
    (s : Session σ) : (p.start clock view).run s =
      ((p.checkObjectives view.nObj).map fun _ => Watch.fresh, s) := by
  rw [start, rule]
  dsimp only
  cases p.checkObjectives view.nObj <;> rfl

/-- A number is compared, and that is all. -/
theorem run_ruleHolds_threshold (rule : p.rule = .threshold target) (clock : Call σ α)
    (watch : Watch α) {view : View α} {f : α} (best : view.bestF = some (.number f))
    (s : Session σ) :
    (p.ruleHolds clock watch view).run s = (.ok (decide (f ≤ target), watch), s) := by
  rw [ruleHolds, rule, best]
  rfl

end Threshold

variable {p : Policy σ Float}

theorem rule_ofThreshold {v bound : Value} (h : ofThreshold v bound = .ok p) :
    ∃ x, v.toFloat = .ok x ∧ p.rule = .threshold x := by
  obtain ⟨x, read, h⟩ := of_bind h
  dsimp only at h
  split at h
  case isTrue => cases h
  case isFalse =>
    obtain ⟨b, -, h⟩ := of_bind h
    cases h
    exact ⟨x, read, rfl⟩

/-- The pair notation of a threshold. -/
theorem ofSource_min_fit (v : Value) : (ofSource (.value (.tuple [.text "min_fit", v])) :
    Except Error (Policy σ Float)) = ofThreshold v (.int safetyGenerations) :=
  rfl

end BoxSearch.Policy
