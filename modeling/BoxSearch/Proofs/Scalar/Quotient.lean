import BoxSearch.Proofs.Scalar.Operations
import Mathlib.Algebra.Order.Floor.Div
import Mathlib.Data.Rat.Floor

/-!
How far rounding goes, and what it does to quotients of whole numbers.

A rounded number is half a unit of its last digit away from the exact one at most. A quotient that
is above a whole number is above it by one part of the divisor at least, which is more than that as
long as the dividend has no more digits than the format keeps. So it does not matter to the whole
number such a quotient is rounded up to whether the quotient is rounded before.
-/

namespace BoxSearch.Binary

open Float.Model Float.Model.UnpackedFloat

variable {em : ExtendedMantissa} {x v r : ℚ} {n w : ℕ}

/-- Rounding to a whole number errs by one half at most. -/
theorem Represents.near (h : Represents em x) : |(em.roundedMantissa : ℚ) - x| ≤ 1 / 2 := by
  rw [abs_le]
  rcases em with ⟨m, _ | _, _ | _⟩ <;>
    simp only [Represents] at h <;>
    simp only [ExtendedMantissa.roundedMantissa, ExtendedMantissa.accuracy,
      Accuracy.roundToNearestEven]
  · constructor <;> linarith
  · constructor <;> linarith
  · rcases Nat.mod_two_eq_zero_or_one m with even | odd
    · rw [even]
      push_cast
      constructor <;> linarith
    · rw [odd]
      push_cast
      constructor <;> linarith
  · push_cast
    constructor <;> linarith

/-- Rounding errs by half a unit of the last digit that is kept, at most. -/
theorem Rounded.near (h : Rounded v r) : |r - v| ≤ 2 ^ grain v / 2 := by
  obtain ⟨em, represents, rfl⟩ := h
  have unit := two_zpow_pos (grain v)
  have scaled : (em.roundedMantissa * 2 ^ grain v - v : ℚ) =
      (em.roundedMantissa - v / 2 ^ grain v) * 2 ^ grain v := by
    field_simp
  calc |(em.roundedMantissa * 2 ^ grain v - v : ℚ)|
      = |em.roundedMantissa - v / 2 ^ grain v| * 2 ^ grain v := by
        rw [scaled, abs_mul, abs_of_pos unit]
    _ ≤ 1 / 2 * 2 ^ grain v := mul_le_mul_of_nonneg_right represents.near unit.le
    _ = 2 ^ grain v / 2 := one_div_mul_eq_div _ _

/-- From one on, the error is a part of the number that does not depend on its size. -/
theorem Rounded.near_of_one_le (h : Rounded v r) (large : 1 ≤ v) : |r - v| ≤ v / 2 ^ 53 := by
  have log : 0 ≤ Int.log 2 v := by
    rw [← Int.zpow_le_iff_le_log Nat.one_lt_two (zero_lt_one.trans_le large)]
    simpa using large
  have last : grain v = Int.log 2 v - 52 := by
    rw [grain]
    omega
  calc |r - v| ≤ 2 ^ grain v / 2 := h.near
    _ = 2 ^ Int.log 2 v / 2 ^ 53 := by
      rw [last, zpow_sub₀ two_ne_zero]
      norm_num
      ring
    _ ≤ v / 2 ^ 53 := by
      gcongr
      exact Int.zpow_log_le_self Nat.one_lt_two (zero_lt_one.trans_le large)

/-- A whole number of no more digits than the format keeps is not changed. -/
theorem rounded_natCast (positive : 0 < n) (short : n < 2 ^ 53) : Rounded n n := by
  have digits : n.log2 < 53 := (Nat.log2_lt positive.ne').mpr short
  have value := shifted_value n (52 - n.log2) 0
  rw [zpow_zero, mul_one, Nat.shiftLeft_eq] at value
  rw [← value]
  apply rounded_self
  · calc n * 2 ^ (52 - n.log2) < 2 ^ (n.log2 + 1) * 2 ^ (52 - n.log2) :=
          Nat.mul_lt_mul_of_pos_right Nat.lt_log2_self (by positivity)
      _ = 2 ^ 53 := by rw [← pow_add]; congr 1; omega
  · omega
  · intro _
    calc 2 ^ 52 = 2 ^ n.log2 * 2 ^ (52 - n.log2) := by rw [← pow_add]; congr 1; omega
      _ ≤ n * 2 ^ (52 - n.log2) := Nat.mul_le_mul_right _ (Nat.log2_self_le positive.ne')
  · positivity

theorem natCeil_div (n : ℕ) (positive : 0 < w) : ⌈(n / w : ℚ)⌉₊ = n ⌈/⌉ w := by
  have below : (0 : ℚ) < w := by exact_mod_cast positive
  refine eq_of_forall_ge_iff fun c => ?_
  rw [Nat.ceil_le, div_le_iff₀ below, ceilDiv_le_iff_le_mul positive, mul_comm (w : ℕ)]
  exact_mod_cast Iff.rfl

/-- A quotient of whole numbers that is above a whole number is above it by a part that rounding
does not take away, as long as the dividend has no more digits than the format keeps. -/
theorem Rounded.lt_quotient (h : Rounded (n / w : ℚ) r) (short : n < 2 ^ 53) (positive : 0 < w)
    {c : ℕ} (some : 0 < c) (under : c * w < n) : (c : ℚ) < r := by
  have below : (0 : ℚ) < w := by exact_mod_cast positive
  have whole : (1 : ℚ) ≤ c := by exact_mod_cast some
  have next : (c * w + 1 : ℚ) ≤ n := by exact_mod_cast under
  have room : (c + 1 / w : ℚ) ≤ n / w := by
    rw [le_div_iff₀ below, add_mul, one_div_mul_cancel below.ne']
    exact next
  have large : (1 : ℚ) ≤ n / w := whole.trans (le_trans (by simp [below.le]) room)
  have error : (n / w : ℚ) / 2 ^ 53 < 1 / w := by
    rw [div_right_comm]
    gcongr
    rw [div_lt_one (by positivity)]
    exact_mod_cast short
  have near := (abs_le.mp (h.near_of_one_le large)).1
  linarith

/-- Such a quotient, rounded first and rounded up to a whole number then, is what it is rounded up
to. Rounding first may turn a small one into zero. -/
theorem Rounded.natCeil_quotient (h : Rounded (n / w : ℚ) r) (some : 0 < n) (short : n < 2 ^ 53)
    (positive : 0 < w) : max 1 ⌈r⌉₊ = n ⌈/⌉ w := by
  have quotient : (0 : ℚ) < n / w := div_pos (by exact_mod_cast some) (by exact_mod_cast positive)
  have ceil := natCeil_div n positive
  have least : 1 ≤ n ⌈/⌉ w := ceil ▸ Nat.ceil_pos.mpr quotient
  have most : n ⌈/⌉ w ≤ n :=
    (ceilDiv_le_iff_le_mul positive).mpr (Nat.le_mul_of_pos_left n positive)
  apply le_antisymm
  · refine max_le least (Nat.ceil_le.mpr ?_)
    exact h.mono (rounded_natCast least (most.trans_lt short)) quotient.le (ceil ▸ Nat.le_ceil _)
  · rcases least.eq_or_lt with one | more
    · exact one ▸ le_max_left _ _
    · obtain ⟨c, next⟩ : ∃ c, n ⌈/⌉ w = c + 1 := ⟨n ⌈/⌉ w - 1, by omega⟩
      have under : c * w < n := by
        by_contra fits
        have bound : n ⌈/⌉ w ≤ c :=
          (ceilDiv_le_iff_le_mul positive).mpr (by rw [mul_comm]; omega)
        omega
      have above := h.lt_quotient short positive (by omega) under
      exact next ▸ (Nat.lt_ceil.mpr above).trans_le (le_max_right _ _)

end BoxSearch.Binary
