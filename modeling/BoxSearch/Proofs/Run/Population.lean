import BoxSearch.Proofs.Tensor
import BoxSearch.Run.Population

/-!
What the checks on a population let through.

Nothing is changed by them: the rows that pass are the rows that were handed in, with as many
fitness rows as positions.
-/

namespace BoxSearch.Population

/-- Positions and fitness that pass are the rows of what was handed in, one of each for every member
of the population. -/
theorem of_check {X F : Tensor Float} {n : Nat} {b : Bounds Float} {declared : Option Int}
    {p : Evaluated Float} (h : check X F n b declared = .ok p) :
    X.rows? = some (b.dim, p.X) ∧ (column F).rows? = some (p.width, p.F) ∧
      p.X.size = n ∧ p.F.size = n := by
  rw [check] at h
  by_cases hdims : (X.dims != [(n : Int), (b.dim : Int)]) = true
  · rw [if_pos hdims] at h
    cases h
  rw [if_neg hdims] at h
  have shape : X.shape = [n, b.dim] := by
    have dims : X.shape.map Int.ofNat = [n, b.dim].map Int.ofNat := by
      simpa [Tensor.dims] using hdims
    exact (List.map_inj_right fun _ _ h => Int.ofNat.inj h).mp dims
  have cut : X.rows? = some (b.dim, Tensor.cut n b.dim X.entries) := by
    rw [Tensor.rows?, shape]
  cases hF : (column F).rows? with
  | none =>
    rw [cut, hF] at h
    cases h
  | some fitness =>
    rw [cut, hF] at h
    simp only at h
    split at h
    case isTrue => cases h
    case isFalse hsize =>
    split at h
    case isTrue => cases h
    case isFalse =>
    split at h
    case isTrue => cases h
    case isFalse =>
      cases h
      refine ⟨cut, rfl, Tensor.size_cut _ _ _, ?_⟩
      simp only [Bool.or_eq_true, bne_iff_ne, ne_eq, not_or, Decidable.not_not] at hsize
      exact Int.ofNat.inj hsize.1

/-- Fitness that passes has an objective at least, and as many as were declared. -/
theorem width_of_check {X F : Tensor Float} {n : Int} {b : Bounds Float} {declared : Option Int}
    {p : Evaluated Float} (h : check X F n b declared = .ok p) :
    p.width ≠ 0 ∧ ∀ m, declared = some m → m = (p.width : Int) := by
  rw [check] at h
  split at h
  case isTrue => cases h
  case isFalse =>
  split at h
  case h_1 positions width fitness _ _ =>
    split at h
    case isTrue => cases h
    case isFalse size =>
    split at h
    case isTrue => cases h
    case isFalse agrees =>
    split at h
    case isTrue => cases h
    case isFalse =>
      cases h
      simp only [Bool.or_eq_true, beq_iff_eq, not_or] at size
      refine ⟨size.2, ?_⟩
      rintro m rfl
      simpa using agrees
  case h_2 => cases h

/-- Positions that pass lie in the space of the box, and all fitness rows have the width found. -/
structure Evaluated.Even (q : Evaluated Float) (dim : Nat) : Prop where
  X : ∀ x ∈ q.X.toList, x.size = dim
  F : ∀ f ∈ q.F.toList, f.size = q.width

/-- Rows that pass are not changed by being laid out and cut again. -/
theorem check_ofRows {q p : Evaluated Float} {n : Nat} {b : Bounds Float} {declared : Option Int}
    (even : q.Even b.dim)
    (h : check (.ofRows b.dim q.X) (.ofRows q.width q.F) n b declared = .ok p) :
    p = q ∧ q.X.size = n ∧ q.F.size = n := by
  obtain ⟨positions, fitness, sizeX, sizeF⟩ := of_check h
  rw [Tensor.rows?_ofRows even.X] at positions
  have rows : (column (Tensor.ofRows q.width q.F)).rows? = some (q.width, q.F) :=
    Tensor.rows?_ofRows even.F
  rw [rows] at fitness
  obtain ⟨X, F, width⟩ := p
  cases positions
  cases fitness
  exact ⟨rfl, sizeX, sizeF⟩

/-- Rows of the right shape that lie in the box pass. -/
theorem check_eq_ok {q : Evaluated Float} {n : Nat} {b : Bounds Float} {declared : Option Int}
    (even : q.Even b.dim) (sizeX : q.X.size = n) (sizeF : q.F.size = n) (width : 1 ≤ q.width)
    (agrees : ∀ m, declared = some m → m = (q.width : Int)) (inside : b.holdsRows q.X = true) :
    check (.ofRows b.dim q.X) (.ofRows q.width q.F) n b declared = .ok q := by
  have positions := Tensor.rows?_ofRows even.X
  have fitness : (column (Tensor.ofRows q.width q.F)).rows? = some (q.width, q.F) :=
    Tensor.rows?_ofRows even.F
  have declared : declared.any (· != (q.width : Int)) = false := by
    cases declared with
    | none => rfl
    | some m => simp [agrees m rfl]
  have dims : (Tensor.ofRows b.dim q.X).dims = [(n : Int), (b.dim : Int)] := by
    simp [Tensor.dims, Tensor.ofRows, sizeX]
  have positive : (q.width == 0) = false := by
    rw [beq_eq_false_iff_ne]
    omega
  simp [check, positions, fitness, declared, dims, positive, sizeF, inside]

theorem full_column {F : Tensor Float} (h : F.entries.size = Tensor.places F.shape) :
    (column F).entries.size = Tensor.places (column F).shape := by
  rw [column]
  split
  case h_1 count shape =>
    rw [shape] at h
    simpa [Tensor.places_cons, Tensor.places] using h
  case h_2 => exact h

theorem even_of_check {X F : Tensor Float} {n : Nat} {b : Bounds Float} {declared : Option Int}
    {p : Evaluated Float} (fullX : X.entries.size = Tensor.places X.shape)
    (fullF : F.entries.size = Tensor.places F.shape) (h : check X F n b declared = .ok p) :
    p.Even b.dim := by
  obtain ⟨positions, fitness, _, _⟩ := of_check h
  exact ⟨Tensor.even_rows? fullX positions, Tensor.even_rows? (full_column fullF) fitness⟩

theorem checked_of_ofValues {X F : Value} {n : Nat} {b : Bounds Float} {declared : Option Int}
    {p : Evaluated Float} (h : ofValues X F (.int n) b declared = .ok p) :
    ∃ X' F', numbers X = .ok X' ∧ numbers F = .ok F' ∧ check X' F' n b declared = .ok p := by
  rw [ofValues] at h
  cases hX : numbers X with
  | error e =>
    rw [hX] at h
    cases h
  | ok X' =>
  cases hF : numbers F with
  | error e =>
    rw [hX, hF] at h
    cases h
  | ok F' =>
    rw [hX, hF] at h
    exact ⟨X', F', rfl, rfl, h⟩

theorem size_ofValues {X F : Value} {n : Nat} {b : Bounds Float} {declared : Option Int}
    {p : Evaluated Float} (h : ofValues X F (.int n) b declared = .ok p) :
    p.F.size = p.X.size := by
  obtain ⟨X', F', _, _, passed⟩ := checked_of_ofValues h
  obtain ⟨_, _, sizeX, sizeF⟩ := of_check passed
  rw [sizeX, sizeF]

theorem toTensor_of_numbers {v : Value} {t : Tensor Float} (h : numbers v = .ok t) :
    v.toTensor = .ok t := by
  rw [numbers] at h
  split at h
  case h_1 => cases h
  case h_2 => cases h
  case h_3 read =>
    cases h
    exact read

theorem width_of_ofValues {X F : Value} {n : Nat} {b : Bounds Float} {declared : Option Int}
    {p : Evaluated Float} (h : ofValues X F (.int n) b declared = .ok p) :
    p.width ≠ 0 ∧ ∀ m, declared = some m → m = (p.width : Int) := by
  obtain ⟨X', F', -, -, passed⟩ := checked_of_ofValues h
  exact width_of_check passed

/-- A population that is read from values consists of rows of one width each. -/
theorem even_of_ofValues {X F : Value} {n : Nat} {b : Bounds Float} {declared : Option Int}
    {p : Evaluated Float} (h : ofValues X F (.int n) b declared = .ok p) : p.Even b.dim := by
  obtain ⟨X', F', hX, hF, passed⟩ := checked_of_ofValues h
  have fullX := Value.size_toTensor (toTensor_of_numbers hX)
  have fullF := Value.size_toTensor (toTensor_of_numbers hF)
  exact even_of_check fullX fullF passed

end BoxSearch.Population
