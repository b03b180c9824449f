import BoxSearch.Dominance.Basic
import BoxSearch.Proofs.Scalar.Order

/-!
Dominance is a strict order on vectors of one width, and numerical equality of vectors goes with it:
a vector may be replaced by a numerically equal one on either side of a comparison. Neither needs
the entries to be numbers, since an entry that is none fails every comparison that is asked for.
-/

namespace BoxSearch

namespace Row

open OrderedScalar Scalar

variable {α : Type} [Scalar α] {x y z : Row α}

theorem same_iff :
    x.same y = true ↔ x.size = y.size ∧ ∀ j < x.size, (x.gene j == y.gene j) = true := by
  simp [same]

theorem same_self [OrderedScalar α] (hx : x.Numeric) : x.same x = true := by
  refine same_iff.mpr ⟨rfl, fun j hj => ?_⟩
  have number : x.gene j ≤ x.gene j := isNaN_eq_false_iff.mp (hx j hj)
  exact beq_iff.mpr ⟨number, number⟩

theorem same_trans [OrderedScalar α] (hxy : x.same y = true) (hyz : y.same z = true) :
    x.same z = true := by
  rw [same_iff] at hxy hyz ⊢
  refine ⟨hxy.1.trans hyz.1, fun j hj => ?_⟩
  exact beq_trans (hxy.2 j hj) (hyz.2 j (hxy.1 ▸ hj))

end Row

namespace Dominance

open OrderedScalar Scalar

variable {α : Type} [Scalar α] {a b c : Row α}

theorem dominates_iff :
    dominates a b = true ↔
      (∀ j < a.size, a.gene j ≤ b.gene j) ∧ ∃ j < a.size, a.gene j < b.gene j := by
  simp [dominates, nowhereAbove, somewhereBelow]

/-- A batch asks of each pair of rows whether one dominates the other. -/
theorem getElem?_notWorseRows {A B : Rows α} {i : Nat} (insideA : i < A.size)
    (insideB : i < B.size) :
    (notWorseRows A B)[i]? = some (!dominates (B.row i) (A.row i)) := by
  rw [notWorseRows, Array.getElem?_zipWith, Array.getElem?_zipWith, Array.getElem?_zipWith]
  simp [dominates, Rows.row, insideA, insideB]

variable [OrderedScalar α]

/-- On a single objective to dominate is to be less. -/
theorem dominates_iff_lt (single : a.size = 1) : dominates a b = true ↔ a.gene 0 < b.gene 0 := by
  rw [dominates_iff, single]
  simpa using fun h => Scalar.le_of_lt h

theorem dominates_irrefl (a : Row α) : dominates a a = false := by
  rw [Bool.eq_false_iff, Ne, dominates_iff]
  rintro ⟨_, j, _, hlt⟩
  exact lt_irrefl _ hlt

theorem dominates_trans (size : a.size = b.size) (hab : dominates a b = true)
    (hbc : dominates b c = true) : dominates a c = true := by
  rw [dominates_iff] at hab hbc ⊢
  obtain ⟨habove, j, hj, hlt⟩ := hab
  refine ⟨fun i hi => le_trans (habove i hi) (hbc.1 i (size ▸ hi)), j, hj, ?_⟩
  exact lt_of_lt_of_le hlt (hbc.1 j (size ▸ hj))

theorem dominates_asymm (size : a.size = b.size) (hab : dominates a b = true) :
    dominates b a = false := by
  rw [Bool.eq_false_iff]
  intro hba
  have haa := dominates_trans size hab hba
  rw [dominates_irrefl] at haa
  cases haa

theorem dominates_of_dominates_of_same (size : a.size = b.size) (hab : dominates a b = true)
    (hbc : b.same c = true) : dominates a c = true := by
  rw [dominates_iff] at hab ⊢
  rw [Row.same_iff] at hbc
  have below (j : Nat) (hj : j < a.size) : b.gene j ≤ c.gene j :=
    (beq_iff.mp (hbc.2 j (size ▸ hj))).1
  obtain ⟨habove, j, hj, hlt⟩ := hab
  refine ⟨fun i hi => le_trans (habove i hi) (below i hi), j, hj, ?_⟩
  exact lt_of_lt_of_le hlt (below j hj)

theorem dominates_of_same_of_dominates (hab : a.same b = true) (hbc : dominates b c = true) :
    dominates a c = true := by
  rw [dominates_iff] at hbc ⊢
  rw [Row.same_iff] at hab
  have below (j : Nat) (hj : j < a.size) : a.gene j ≤ b.gene j :=
    (beq_iff.mp (hab.2 j hj)).1
  obtain ⟨habove, j, hj, hlt⟩ := hbc
  have hj' : j < a.size := hab.1.symm ▸ hj
  refine ⟨fun i hi => le_trans (below i hi) (habove i (hab.1 ▸ hi)), j, hj', ?_⟩
  exact lt_of_le_of_lt (below j hj') hlt

end Dominance

end BoxSearch
