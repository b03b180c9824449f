import BoxSearch.Proofs.Scalar.Value
import Mathlib.Data.Int.Log
import Mathlib.Tactic.Linarith
import Mathlib.Tactic.NormNum

/-!
Rounding respects order.

The result of an operation is the exact result with as many digits as the format keeps, and of two
neighbours the nearer one. A larger exact result is not rounded to a smaller number. So bounds on
exact results that can be represented are bounds on the computed ones, too.
-/

namespace BoxSearch.Binary

open Float.Model Float.Model.UnpackedFloat

/-- The exponent of the last binary digit that is kept of a positive number. -/
def grain (v : ℚ) : ℤ :=
  max (Int.log 2 v - 52) (-1074)

/-- A mantissa with a round bit and a sticky bit stands for any number `x` that has this integral
part and lies at this side of the middle. -/
def Represents (em : ExtendedMantissa) (x : ℚ) : Prop :=
  match em.roundBit, em.stickyBit with
  | false, false => x = em.mantissa
  | false, true => (em.mantissa : ℚ) < x ∧ x < em.mantissa + 1 / 2
  | true, false => x = em.mantissa + 1 / 2
  | true, true => (em.mantissa : ℚ) + 1 / 2 < x ∧ x < em.mantissa + 1

section Represents

variable {em en : ExtendedMantissa} {x y : ℚ}

theorem Represents.floor (h : Represents em x) : (em.mantissa : ℚ) ≤ x ∧ x < em.mantissa + 1 := by
  rcases em with ⟨m, _ | _, _ | _⟩ <;> simp only [Represents] at h
  · constructor <;> linarith
  · constructor <;> linarith
  · constructor <;> linarith
  · constructor <;> linarith

theorem represents_natCast (m : ℕ) : Represents (.ofMantissaAndAccuracy m .exact) m :=
  rfl

theorem represents_fraction {n d : ℕ} (positive : 0 < d) :
    Represents (.ofMantissaAndAccuracy (n / d) (accuracyOfFraction (n % d) d)) (n / d : ℚ) := by
  have below : (0 : ℚ) < d := by exact_mod_cast positive
  have whole : (n : ℚ) = (n / d : ℕ) * d + (n % d : ℕ) := by
    exact_mod_cast (Nat.div_add_mod' n d).symm
  have quotient : (n / d : ℚ) = (n / d : ℕ) + (n % d : ℕ) / d := by
    rw [whole]
    field_simp
  rw [quotient, accuracyOfFraction]
  split
  case isTrue none => simp [none, Represents, ExtendedMantissa.ofMantissaAndAccuracy]
  case isFalse some =>
    have some : (0 : ℚ) < (n % d : ℕ) := by exact_mod_cast Nat.pos_of_ne_zero some
    cases side : compare (2 * (n % d)) d with
    | lt =>
      have side : (2 * (n % d : ℕ) : ℚ) < d := by exact_mod_cast Nat.compare_eq_lt.mp side
      have less : ((n % d : ℕ) / d : ℚ) < 1 / 2 := by
        rw [div_lt_div_iff₀ below two_pos]
        linarith
      exact ⟨lt_add_of_pos_right _ (div_pos some below), add_lt_add_right less _⟩
    | eq =>
      have side : (2 * (n % d : ℕ) : ℚ) = d := by exact_mod_cast Nat.compare_eq_eq.mp side
      have half : ((n % d : ℕ) / d : ℚ) = 1 / 2 := by
        rw [div_eq_div_iff below.ne' two_ne_zero]
        linarith
      rw [half]
      rfl
    | gt =>
      have side : (d : ℚ) < 2 * (n % d : ℕ) := by exact_mod_cast Nat.compare_eq_gt.mp side
      have rest : ((n % d : ℕ) : ℚ) < d := by exact_mod_cast Nat.mod_lt n positive
      have more : (1 / 2 : ℚ) < (n % d : ℕ) / d := by
        rw [div_lt_div_iff₀ two_pos below]
        linarith
      have less : ((n % d : ℕ) / d : ℚ) < 1 := by rwa [div_lt_one below]
      exact ⟨add_lt_add_right more _, add_lt_add_right less _⟩

theorem Represents.shiftRightOne (h : Represents em x) : Represents em.shiftRightOne (x / 2) := by
  rcases em with ⟨m, r, s⟩
  obtain ⟨k, rfl | rfl⟩ : ∃ k, m = 2 * k ∨ m = 2 * k + 1 := ⟨m / 2, by omega⟩
  · have half : 2 * k / 2 = k := by omega
    cases r <;> cases s <;> simp_all [Represents, ExtendedMantissa.shiftRightOne] <;>
      (try constructor) <;> linarith
  · have half : (2 * k + 1) / 2 = k := by omega
    have odd : (2 * k + 1) % 2 = 1 := by omega
    cases r <;> cases s <;> simp_all [Represents, ExtendedMantissa.shiftRightOne] <;>
      (try constructor) <;> linarith

theorem Represents.shiftRight (h : Represents em x) (n : ℕ) : Represents (em >>> n) (x / 2 ^ n) := by
  induction n with
  | zero => rwa [pow_zero, div_one]
  | succ n ih =>
    have next : Represents (em >>> n).shiftRightOne (x / 2 ^ n / 2) := ih.shiftRightOne
    rwa [div_div, ← pow_succ] at next

theorem roundedMantissa_bounds (em : ExtendedMantissa) :
    em.mantissa ≤ em.roundedMantissa ∧ em.roundedMantissa ≤ em.mantissa + 1 := by
  rcases em with ⟨m, _ | _, _ | _⟩ <;>
    simp only [ExtendedMantissa.roundedMantissa, ExtendedMantissa.accuracy,
      Accuracy.roundToNearestEven] <;> omega

/-- Of two neighbouring integers the nearer one is taken, in the middle the even one. -/
theorem Represents.roundedMantissa_le (hx : Represents em x) (hy : Represents en y) (h : x ≤ y) :
    em.roundedMantissa ≤ en.roundedMantissa := by
  have ordered : em.mantissa < en.mantissa + 1 := by
    exact_mod_cast hx.floor.1.trans_lt (h.trans_lt hy.floor.2)
  rcases Nat.lt_succ_iff_lt_or_eq.mp ordered with below | same
  · calc em.roundedMantissa ≤ em.mantissa + 1 := (roundedMantissa_bounds em).2
      _ ≤ en.mantissa := below
      _ ≤ en.roundedMantissa := (roundedMantissa_bounds en).1
  · -- both lie between the same two integers, and what matters is the side of the middle
    rcases em with ⟨m, r, s⟩
    rcases en with ⟨n, r', s'⟩
    obtain rfl : m = n := same
    cases r <;> cases s <;> cases r' <;> cases s' <;>
      simp only [Represents] at hx hy <;>
      simp only [ExtendedMantissa.roundedMantissa, ExtendedMantissa.accuracy,
        Accuracy.roundToNearestEven] <;>
      first | omega | (exfalso; linarith)

end Represents

section Rounded

variable {m : ℕ} {e : ℤ} {accuracy : Accuracy} {v w : ℚ}

theorem two_zpow_pos (e : ℤ) : (0 : ℚ) < 2 ^ e :=
  zpow_pos two_pos e

theorem two_zpow_le {d e : ℤ} (h : d ≤ e) : (2 : ℚ) ^ d ≤ 2 ^ e :=
  zpow_le_zpow_right₀ one_le_two h

theorem log_eq {k : ℤ} (low : (2 : ℚ) ^ k ≤ v) (high : v < 2 ^ (k + 1)) : Int.log 2 v = k := by
  have positive : 0 < v := (two_zpow_pos k).trans_le low
  have above : k ≤ Int.log 2 v := (Int.zpow_le_iff_le_log Nat.one_lt_two positive).mp low
  have below : Int.log 2 v < k + 1 := (Int.lt_zpow_iff_log_lt Nat.one_lt_two positive).mp high
  omega

theorem log_scaled (positive : 0 < m) : Int.log 2 (m * 2 ^ e : ℚ) = m.log2 + e := by
  have unit := two_zpow_pos e
  have low : (2 : ℚ) ^ m.log2 ≤ m := by exact_mod_cast Nat.log2_self_le positive.ne'
  have high : (m : ℚ) < 2 ^ (m.log2 + 1) := by exact_mod_cast Nat.lt_log2_self
  apply log_eq
  · rw [zpow_add₀ two_ne_zero, zpow_natCast]
    exact mul_le_mul_of_nonneg_right low unit.le
  · rw [add_right_comm, zpow_add₀ two_ne_zero, ← Nat.cast_add_one, zpow_natCast]
    exact mul_lt_mul_of_pos_right high unit

theorem floor_ofMantissaAndAccuracy (m : ℕ) (accuracy : Accuracy) :
    (ExtendedMantissa.ofMantissaAndAccuracy m accuracy).mantissa = m := by
  rcases accuracy with _ | (_ | _ | _) <;> rfl

/-- What is shifted to its last digit to keep loses no information that rounding asks for. -/
theorem shiftToTargetExponent_represents (positive : 0 < v)
    (represents : Represents (.ofMantissaAndAccuracy m accuracy) (v / 2 ^ e)) (fine : e ≤ grain v) :
    ∃ em, shiftToTargetExponent Format.binary64 m e accuracy = (em, grain v) ∧
      Represents em (v / 2 ^ grain v) := by
  have unit := two_zpow_pos e
  obtain ⟨low, high⟩ := represents.floor
  rw [floor_ofMantissaAndAccuracy] at low high
  rw [le_div_iff₀ unit] at low
  rw [div_lt_iff₀ unit] at high
  have target : Format.binary64.targetExponent (totalExponent m e) = grain v := by
    have formula : Format.binary64.targetExponent (totalExponent m e) =
        max (m.log2 + e - 52) (-1074) := by
      simp only [Format.targetExponent, totalExponent, Format.mantissaBits, Format.minExponent]
      omega
    rw [formula]
    rcases Nat.eq_zero_or_pos m with rfl | some
    · have below : Int.log 2 v < e :=
        (Int.lt_zpow_iff_log_lt Nat.one_lt_two positive).mp (by simpa using high)
      rw [grain] at fine ⊢
      simp
      omega
    · have lead : (2 : ℚ) ^ m.log2 ≤ m := by exact_mod_cast Nat.log2_self_le some.ne'
      have bound : (m : ℚ) + 1 ≤ 2 ^ (m.log2 + 1) := by exact_mod_cast Nat.lt_log2_self
      have log : Int.log 2 v = m.log2 + e := by
        apply log_eq
        · rw [zpow_add₀ two_ne_zero, zpow_natCast]
          exact (mul_le_mul_of_nonneg_right lead unit.le).trans low
        · have same : (2 : ℚ) ^ ((m.log2 : ℤ) + e + 1) = 2 ^ (m.log2 + 1) * 2 ^ e := by
            rw [← zpow_natCast, ← zpow_add₀ two_ne_zero]
            congr 1
            push_cast
            ring
          rw [same]
          exact high.trans_le (mul_le_mul_of_nonneg_right bound unit.le)
      rw [grain, log]
  have places : ((grain v - e).toNat : ℤ) = grain v - e := Int.toNat_of_nonneg (by omega)
  refine ⟨ExtendedMantissa.ofMantissaAndAccuracy m accuracy >>> (grain v - e).toNat, ?_, ?_⟩
  · simp only [shiftToTargetExponent, shiftToExponent, target, places]
    congr 1
    omega
  · have shifted := represents.shiftRight (grain v - e).toNat
    rwa [div_div, ← zpow_natCast, places, ← zpow_add₀ two_ne_zero, add_sub_cancel] at shifted

theorem le_grain (v : ℚ) : -1074 ≤ grain v :=
  le_max_right _ _

theorem grain_mono (positive : 0 < v) (h : v ≤ w) : grain v ≤ grain w :=
  max_le_max_right _ (Int.sub_le_sub_right (Int.log_mono_right positive h) 52)

/-- A mantissa has as many digits as the format keeps, unless the exponent is the least one. -/
theorem Represents.mantissa_bounds {em : ExtendedMantissa} (positive : 0 < v)
    (h : Represents em (v / 2 ^ grain v)) :
    em.mantissa < 2 ^ 53 ∧ (grain v = -1074 ∨ 2 ^ 52 ≤ em.mantissa) := by
  have unit := two_zpow_pos (grain v)
  obtain ⟨low, high⟩ := h.floor
  rw [le_div_iff₀ unit] at low
  rw [div_lt_iff₀ unit] at high
  constructor
  · have top : v < 2 ^ (53 : ℕ) * 2 ^ grain v :=
      calc v < 2 ^ (Int.log 2 v + 1) := Int.lt_zpow_succ_log_self Nat.one_lt_two v
        _ ≤ 2 ^ ((53 : ℕ) + grain v) := two_zpow_le (by rw [grain]; omega)
        _ = 2 ^ (53 : ℕ) * 2 ^ grain v := by rw [zpow_add₀ two_ne_zero, zpow_natCast]
    exact_mod_cast lt_of_mul_lt_mul_right (low.trans_lt top) unit.le
  · rcases eq_or_ne (grain v) (-1074) with least | more
    · exact .inl least
    · right
      have log : grain v = Int.log 2 v - 52 := by
        rw [grain] at more ⊢
        omega
      have lead : (2 : ℚ) ^ (52 : ℕ) * 2 ^ grain v ≤ v :=
        calc (2 : ℚ) ^ (52 : ℕ) * 2 ^ grain v = 2 ^ Int.log 2 v := by
              rw [← zpow_natCast, ← zpow_add₀ two_ne_zero, log]
              congr 1
              omega
          _ ≤ v := Int.zpow_log_le_self Nat.one_lt_two positive
      have filled : (2 : ℚ) ^ (52 : ℕ) < em.mantissa + 1 :=
        lt_of_mul_lt_mul_right (lead.trans_lt high) unit.le
      exact Nat.lt_succ_iff.mp (by exact_mod_cast filled)

/-- The number `v` with the digits that the format keeps, as if there were no largest number. -/
def Rounded (v r : ℚ) : Prop :=
  ∃ em, Represents em (v / 2 ^ grain v) ∧ r = em.roundedMantissa * 2 ^ grain v

theorem Rounded.eq_zero {r : ℚ} (h : Rounded 0 r) : r = 0 := by
  obtain ⟨⟨m, a, b⟩, represents, rfl⟩ := h
  have nonneg : (0 : ℚ) ≤ m := Nat.cast_nonneg m
  rw [zero_div] at represents
  cases a <;> cases b <;> simp only [Represents] at represents
  · have none : m = 0 := by exact_mod_cast represents.symm
    subst none
    exact zero_mul _
  · linarith [represents.1]
  · linarith
  · linarith [represents.1]

theorem Rounded.nonneg {r : ℚ} (h : Rounded v r) : 0 ≤ r := by
  obtain ⟨em, -, rfl⟩ := h
  exact mul_nonneg (Nat.cast_nonneg _) (two_zpow_pos _).le

/-- Rounding respects order. -/
theorem Rounded.mono {r s : ℚ} (hv : Rounded v r) (hw : Rounded w s) (nonneg : 0 ≤ v)
    (h : v ≤ w) : r ≤ s := by
  rcases nonneg.eq_or_lt with rfl | positive
  · rw [hv.eq_zero]
    exact hw.nonneg
  obtain ⟨em, hem, rfl⟩ := hv
  obtain ⟨en, hen, rfl⟩ := hw
  have unit := two_zpow_pos (grain v)
  rcases (grain_mono positive h).lt_or_eq with finer | same
  · -- the power of two at which the coarser digits begin lies between the two
    have short := (roundedMantissa_bounds em).2.trans (hem.mantissa_bounds positive).1
    have filled := (hen.mantissa_bounds (positive.trans_le h)).2.resolve_left
      (by have := le_grain v; omega)
    have short : (em.roundedMantissa : ℚ) ≤ 2 ^ (53 : ℕ) := by exact_mod_cast short
    have filled : (2 : ℚ) ^ (52 : ℕ) ≤ en.roundedMantissa := by
      exact_mod_cast filled.trans (roundedMantissa_bounds en).1
    calc em.roundedMantissa * (2 : ℚ) ^ grain v
        ≤ 2 ^ (53 : ℕ) * 2 ^ grain v := mul_le_mul_of_nonneg_right short unit.le
      _ = 2 ^ ((53 : ℕ) + grain v) := by rw [zpow_add₀ two_ne_zero, zpow_natCast]
      _ ≤ 2 ^ ((52 : ℕ) + grain w) := two_zpow_le (by omega)
      _ = 2 ^ (52 : ℕ) * 2 ^ grain w := by rw [zpow_add₀ two_ne_zero, zpow_natCast]
      _ ≤ en.roundedMantissa * 2 ^ grain w :=
          mul_le_mul_of_nonneg_right filled (two_zpow_pos _).le
  · rw [same] at hem ⊢
    have ordered : (em.roundedMantissa : ℚ) ≤ en.roundedMantissa := by
      exact_mod_cast hem.roundedMantissa_le hen (by gcongr)
    exact mul_le_mul_of_nonneg_right ordered (two_zpow_pos _).le

/-- A number with as many digits as the format keeps is not changed. -/
theorem rounded_self (short : m < 2 ^ 53) (least : -1074 ≤ e) (long : -1074 < e → 2 ^ 52 ≤ m)
    (positive : 0 < m) : Rounded (m * 2 ^ e) (m * 2 ^ e) := by
  have grain : grain (m * 2 ^ e) = e := by
    rw [grain, log_scaled positive]
    have below : m.log2 < 53 := (Nat.log2_lt positive.ne').mpr short
    rcases least.lt_or_eq with more | rfl
    · have above : 52 ≤ m.log2 := (Nat.le_log2 positive.ne').mpr (long more)
      omega
    · omega
  refine ⟨.ofMantissaAndAccuracy m .exact, ?_, by rw [grain]; rfl⟩
  rw [grain, mul_div_cancel_right₀ _ (two_zpow_pos e).ne']
  exact represents_natCast m

end Rounded

end BoxSearch.Binary
