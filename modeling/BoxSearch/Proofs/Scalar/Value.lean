import BoxSearch.Proofs.Scalar.Sign
import Mathlib.Algebra.Order.Field.Power
import Mathlib.Data.Rat.Defs
import Mathlib.Tactic.Positivity

/-!
The rational number that a double precision number stands for.
-/

namespace BoxSearch.Binary

open Float.Model Float.Model.UnpackedFloat

/-- Mantissa times a power of two, with a sign. What is not finite stands for zero. -/
def unpackedValue : UnpackedFloat → ℚ
  | .finite .positive mantissa exponent _ => mantissa * 2 ^ exponent
  | .finite .negative mantissa exponent _ => -(mantissa * 2 ^ exponent)
  | .infinity _ | .notANumber | .zero _ => 0

def value (x : Float) : ℚ :=
  unpackedValue x.toModel.unpack

theorem value_zero : value 0.0 = 0 := by
  decide +kernel

theorem value_one : value 1.0 = 1 := by
  decide +kernel

theorem le_self_of_isFinite {x : Float} (h : x.isFinite = true) : x ≤ x := by
  rw [le_iff_place]
  change x.toModel.unpack.isFinite = true at h
  unfold place
  rcases hx : x.toModel.unpack with _ | _ | _ | ⟨_ | _, m, e, hm⟩ <;> rw [hx] at h
  · cases h
  · cases h
  · exact ⟨_, _, rfl, rfl, le_rfl⟩
  · exact ⟨_, _, rfl, rfl, le_rfl⟩
  · exact ⟨_, _, rfl, rfl, le_rfl⟩

/-- Of two canonical magnitudes the one that comes first, by exponent and then by mantissa, stands for
the smaller number. -/
theorem magnitude_le {m n : Nat} {e f : ℤ} (short : m < 2 ^ 53) (least : -1074 ≤ e)
    (long : -1074 < f → 2 ^ 52 ≤ n) (h : e < f ∨ e = f ∧ m ≤ n) :
    (m * 2 ^ e : ℚ) ≤ n * 2 ^ f := by
  rcases h with lower | ⟨rfl, smaller⟩
  · have long := long (by omega)
    have mantissa : (m : ℚ) ≤ 2 * n := by exact_mod_cast (by omega : m ≤ 2 * n)
    have power : (2 : ℚ) ^ (e + 1) ≤ 2 ^ f := zpow_le_zpow_right₀ (by norm_num) (by omega)
    calc (m * 2 ^ e : ℚ) ≤ 2 * n * 2 ^ e := by gcongr
      _ = n * 2 ^ (e + 1) := by rw [zpow_add_one₀ (by norm_num)]; ring
      _ ≤ n * 2 ^ f := by gcongr
  · gcongr

/-- A finite number that is at most another one stands for a rational that is at most the other's. -/
theorem value_le_value {x y : Float} (finiteX : Scalar.isFinite x = true)
    (finiteY : Scalar.isFinite y = true) (h : x ≤ y) : value x ≤ value y := by
  obtain ⟨a, b, ha, hb, hab⟩ := (le_iff_place x y).mp h
  have canonicalX := canonical_unpack x.toModel
  have canonicalY := canonical_unpack y.toModel
  rw [isFinite_iff] at finiteX finiteY
  rw [place] at ha hb
  unfold value
  have positive (m : Nat) (e : ℤ) : (0 : ℚ) ≤ m * 2 ^ e := by positivity
  rcases hx : x.toModel.unpack with _ | _ | _ | ⟨s, m, e, hm⟩ <;>
    rw [hx] at ha canonicalX finiteX <;> cases finiteX <;>
    rcases hy : y.toModel.unpack with _ | _ | _ | ⟨t, n, f, hn⟩ <;>
    rw [hy] at hb canonicalY finiteY <;> cases finiteY
  · exact le_rfl
  · cases t <;> cases ha <;> cases hb
    · simp [Prod.Lex.toLex_le_toLex] at hab
    · exact positive n f
  · cases s <;> cases ha <;> cases hb
    · exact neg_nonpos.mpr (positive m e)
    · simp [Prod.Lex.toLex_le_toLex] at hab
  · obtain ⟨shortX, leastX, longX⟩ := canonicalX
    obtain ⟨shortY, leastY, longY⟩ := canonicalY
    cases s <;> cases t <;> cases ha <;> cases hb <;>
      simp only [Prod.Lex.toLex_le_toLex] at hab
    · exact neg_le_neg (magnitude_le shortY leastY longX (by omega))
    · exact (neg_nonpos.mpr (positive m e)).trans (positive n f)
    · omega
    · exact magnitude_le shortX leastX longY (by omega)

theorem place_one : place (1.0 : Float) = some (toLex (1, toLex (-52, 2 ^ 52))) := by
  decide +kernel

theorem scaled_le_one {m : Nat} {e : ℤ} (short : m < 2 ^ 53)
    (h : e < -52 ∨ e = -52 ∧ (m : ℤ) ≤ 2 ^ 52) : (m * 2 ^ e : ℚ) ≤ 1 := by
  rcases h with small | ⟨rfl, least⟩
  · have power : (2 : ℚ) ^ e ≤ 2 ^ (-53 : ℤ) := zpow_le_zpow_right₀ (by norm_num) (by omega)
    have mantissa : (m : ℚ) ≤ 2 ^ 53 := by exact_mod_cast short.le
    calc (m * 2 ^ e : ℚ) ≤ 2 ^ 53 * 2 ^ (-53 : ℤ) := by gcongr
      _ = 1 := by norm_num
  · have mantissa : (m : ℚ) ≤ 2 ^ 52 := by exact_mod_cast least
    calc (m * 2 ^ (-52 : ℤ) : ℚ) ≤ 2 ^ 52 * 2 ^ (-52 : ℤ) := by gcongr
      _ = 1 := by norm_num

/-- What lies above zero and not above one stands for such a number. -/
theorem value_mem {x : Float} (positive : 0.0 < x) (small : x ≤ 1.0) :
    0 < value x ∧ value x ≤ 1 := by
  obtain ⟨a, b, ha, hb, hab⟩ := (lt_iff_place _ _).mp positive
  obtain ⟨b', c, hb', hc, hbc⟩ := (le_iff_place _ _).mp small
  obtain rfl : b = b' := Option.some.inj (hb.symm.trans hb')
  have zero : place (0.0 : Float) = some (toLex (0, toLex (0, 0))) := place_zero
  rw [zero] at ha
  rw [place_one] at hc
  cases ha
  cases hc
  have canonical := canonical_unpack x.toModel
  rw [place] at hb
  unfold value
  rcases hx : x.toModel.unpack with (_ | _) | _ | _ | ⟨_ | _, m, e, hm⟩ <;>
    rw [hx] at hb canonical <;> cases hb
  · simp [Prod.Lex.toLex_lt_toLex] at hab
  · simp [Prod.Lex.toLex_le_toLex] at hbc
  · simp at hab
  · simp [Prod.Lex.toLex_lt_toLex] at hab
  · have mantissa : (0 : ℚ) < m := by exact_mod_cast hm
    refine ⟨by unfold unpackedValue; positivity, scaled_le_one canonical.1 ?_⟩
    simpa [Prod.Lex.toLex_le_toLex] using hbc

/-- Such a number can be raised to any power. -/
theorem power_value_mem {x : Float} (positive : 0.0 < x) (small : x ≤ 1.0) (k : Nat) :
    0 < value x ^ k ∧ value x ^ k ≤ 1 := by
  obtain ⟨above, below⟩ := value_mem positive small
  exact ⟨pow_pos above k, pow_le_one₀ above.le below⟩

end BoxSearch.Binary
