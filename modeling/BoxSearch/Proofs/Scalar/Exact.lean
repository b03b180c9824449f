import BoxSearch.Proofs.Scalar.Value
import BoxSearch.Bounds.Basic
import Mathlib.Analysis.SpecialFunctions.Pow.Real

/-!
Exact arithmetic: the real numbers with two infinities as the numbers of a search.

Sums, products and quotients of real numbers carry no rounding here, and a count is the number
itself. A drawn or given number stands for its value; what is not a number has none, and is taken
for the infinity. The power, the exponential and the square root are those of real numbers and take
an infinity for zero.
-/

namespace BoxSearch

open Classical in
noncomputable instance : Scalar EReal where
  beq a b := decide (a = b)
  decLE _ _ := inferInstance
  decLT _ _ := inferInstance
  ofFloat x :=
    if Scalar.isFinite x then ((Binary.value x : ℝ) : EReal) else if x < Scalar.zero then ⊥ else ⊤
  ofNat n := n
  infinity := ⊤
  power a b := ((a.toReal ^ b.toReal : ℝ) : EReal)
  exp a := ((Real.exp a.toReal : ℝ) : EReal)
  sqrt a := ((Real.sqrt a.toReal : ℝ) : EReal)

namespace Exact

theorem isFinite_iff {a : EReal} : Scalar.isFinite a = true ↔ ∃ r : ℝ, a = r := by
  have between : Scalar.isFinite a = true ↔ ⊥ < a ∧ a < ⊤ := by
    rw [Scalar.isFinite, Bool.and_eq_true, decide_eq_true_eq, decide_eq_true_eq]
    exact Iff.rfl
  rw [between]
  constructor
  · rintro ⟨above, below⟩
    exact ⟨a.toReal, (EReal.coe_toReal below.ne above.ne').symm⟩
  · rintro ⟨r, rfl⟩
    exact ⟨EReal.bot_lt_coe r, EReal.coe_lt_top r⟩

/-- A finite number of double precision stands for its value. -/
theorem ofFloat_eq {x : Float} (finite : Scalar.isFinite x = true) :
    (Scalar.ofFloat x : EReal) = ((Binary.value x : ℝ) : EReal) :=
  if_pos finite

theorem zero_eq : (Scalar.zero : EReal) = ((0 : ℝ) : EReal) := by
  rw [Scalar.zero, ofFloat_eq (by decide +kernel), Binary.value_zero, Rat.cast_zero]

theorem one_eq : (Scalar.one : EReal) = ((1 : ℝ) : EReal) := by
  rw [Scalar.one, ofFloat_eq (by decide +kernel), Binary.value_one, Rat.cast_one]

end Exact

end BoxSearch
