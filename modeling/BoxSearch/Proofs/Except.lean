import BoxSearch.Error.Basic
import Mathlib.Data.List.Forall2

/-!
Computations in `Except` that did not fail, taken apart or computed.
-/

namespace BoxSearch

variable {β γ : Type} {r : Except Error β} {c : γ}

theorem of_bind {f : β → Except Error γ} (h : r >>= f = .ok c) :
    ∃ b, r = .ok b ∧ f b = .ok c := by
  cases r with
  | error e => cases h
  | ok b => exact ⟨b, rfl, h⟩

theorem of_map {f : β → γ} (h : r.map f = .ok c) : ∃ b, r = .ok b ∧ f b = c := by
  cases r with
  | error e => cases h
  | ok b => exact ⟨b, rfl, Except.ok.inj h⟩

/-- A property of a result can be decided by computing it. -/
theorem of_decide {good : β → Prop} [DecidablePred good]
    (h : (match r with
      | .ok b => decide (good b)
      | .error _ => true) = true) : ∀ b, r = .ok b → good b := by
  rintro b rfl
  simpa using h

section Mapping

variable {ι β ε : Type} {f : ι → Except ε β}

/-- What follows for the second of two matched entries is true of all entries of the second list. -/
theorem forall_of_forall₂ {R : ι → β → Prop} {good : β → Prop} {xs : List ι} {ys : List β}
    (h : List.Forall₂ R xs ys) (imp : ∀ x y, R x y → good y) : ∀ y ∈ ys, good y := by
  have both : List.Forall₂ (fun y x => good y ∧ flip R y x) ys xs :=
    h.flip.imp fun y x r => ⟨imp x y r, r⟩
  exact ((List.forall₂_and_left _ _).mp both).1

/-- A mapping succeeds if and only if it does for every argument, and then has these results. -/
theorem mapM_eq_ok_iff {xs : List ι} {ys : List β} :
    xs.mapM f = .ok ys ↔ List.Forall₂ (fun x y => f x = .ok y) xs ys := by
  constructor
  · intro h
    induction xs generalizing ys with
    | nil =>
      cases h
      exact .nil
    | cons x xs ih =>
      rw [List.mapM_cons] at h
      cases head : f x with
      | error e =>
        rw [head] at h
        cases h
      | ok y =>
        cases tail : xs.mapM f with
        | error e =>
          rw [head, tail] at h
          cases h
        | ok zs =>
          rw [head, tail] at h
          cases h
          exact .cons head (ih tail)
  · intro h
    induction h with
    | nil => rfl
    | cons head _ ih =>
      rw [List.mapM_cons, head, ih]
      rfl

theorem mapM_eq_ok {g : ι → β} {xs : List ι} (h : ∀ x ∈ xs, f x = .ok (g x)) :
    xs.mapM f = .ok (xs.map g) :=
  mapM_eq_ok_iff.mpr (List.forall₂_map_right_iff.mpr (List.forall₂_same.mpr h))

/-- A mapping that succeeds matches every argument with one of the results, and the other way. -/
theorem matched_of_mapM_eq_ok {xs : List ι} {ys : List β} (h : xs.mapM f = .ok ys) :
    (∀ x ∈ xs, ∃ y ∈ ys, f x = .ok y) ∧ ∀ y ∈ ys, ∃ x ∈ xs, f x = .ok y := by
  have each := mapM_eq_ok_iff.mp h
  clear h
  induction each with
  | nil => simp
  | cons head _ ih =>
    obtain ⟨forth, back⟩ := ih
    constructor
    · intro x hx
      rcases List.mem_cons.mp hx with rfl | hx
      · exact ⟨_, List.mem_cons_self, head⟩
      · obtain ⟨y, hy, found⟩ := forth x hx
        exact ⟨y, List.mem_cons_of_mem _ hy, found⟩
    · intro y hy
      rcases List.mem_cons.mp hy with rfl | hy
      · exact ⟨_, List.mem_cons_self, head⟩
      · obtain ⟨x, hx, found⟩ := back y hy
        exact ⟨x, List.mem_cons_of_mem _ hx, found⟩

theorem exists_of_mapM_eq_error {xs : List ι} {e : ε} (h : xs.mapM f = .error e) :
    ∃ x ∈ xs, f x = .error e := by
  induction xs with
  | nil => cases h
  | cons x xs ih =>
    rw [List.mapM_cons] at h
    cases head : f x with
    | error e' =>
      rw [head] at h
      cases h
      exact ⟨x, List.mem_cons_self, head⟩
    | ok y =>
      cases tail : xs.mapM f with
      | error e' =>
        rw [head, tail] at h
        cases h
        obtain ⟨x', hx', he⟩ := ih tail
        exact ⟨x', List.mem_cons_of_mem _ hx', he⟩
      | ok zs =>
        rw [head, tail] at h
        cases h

end Mapping

end BoxSearch
