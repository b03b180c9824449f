import BoxSearch.Proofs.Scalar.Operations

/-!
Parts of a whole.

A crowding distance is a sum of shares: of each objective the gap between two neighbours as a part of
the whole range. The laws below are what it takes for such a sum to stay finite. For double
precision numbers they hold as rounding respects order. A share is at most one, and one more does not
take the largest number to infinity.
-/

namespace BoxSearch

/-- A share of a finite whole is small enough to be added to any finite number. -/
class SharedScalar (α : Type) [Scalar α] : Prop extends SignedScalar α where
  finite_zero : Scalar.isFinite (Scalar.zero : α) = true
  infinity_add {a : α} : Scalar.zero ≤ a → Scalar.infinity + a = Scalar.infinity
  finite_add_share {d low a b high : α} : Scalar.isFinite d = true → Scalar.zero ≤ d → low ≤ a →
    a ≤ b → b ≤ high → Scalar.isFinite (high - low) = true → Scalar.zero < high - low →
    Scalar.isFinite (d + (b - a) / (high - low)) = true

namespace Binary

open Float.Model Float.Model.UnpackedFloat

variable {v w : ℚ} {x y : Float}

/-- The number `x` is `v`, rounded; beyond the largest number it is an infinity. -/
def Nearest (v : ℚ) (x : Float) : Prop :=
  ∃ r, Rounded v r ∧ (Scalar.isFinite x = true ↔ r < 2 ^ 1024) ∧
    (Scalar.isFinite x = true → value x = r)

/-- A larger result than one that can be represented at most is not rounded to less. -/
theorem Nearest.le (hx : Nearest v x) (hy : Nearest w y) (nonneg : 0 ≤ v) (h : v ≤ w)
    (finite : Scalar.isFinite y = true) : Scalar.isFinite x = true ∧ value x ≤ value y := by
  obtain ⟨r, roundedX, finiteX, valueX⟩ := hx
  obtain ⟨s, roundedY, finiteY, valueY⟩ := hy
  have ordered := roundedX.mono roundedY nonneg h
  have finite' := finiteX.mpr (ordered.trans_lt (finiteY.mp finite))
  exact ⟨finite', by rwa [valueX finite', valueY finite]⟩

theorem value_lt_limit {m : ℕ} {e : ℤ} (short : m < 2 ^ 53) (fits : e ≤ 971) :
    (m * 2 ^ e : ℚ) < 2 ^ 1024 := by
  have short : (m : ℚ) < 2 ^ 53 := by exact_mod_cast short
  calc (m * 2 ^ e : ℚ) < 2 ^ 53 * 2 ^ e := mul_lt_mul_of_pos_right short (two_zpow_pos e)
    _ ≤ 2 ^ 53 * 2 ^ (971 : ℤ) := mul_le_mul_of_nonneg_left (two_zpow_le fits) (by positivity)
    _ = 2 ^ 1024 := by rw [← zpow_natCast, ← zpow_natCast, ← zpow_add₀ two_ne_zero]; rfl

theorem limit_le_value {m : ℕ} {e : ℤ} (long : 2 ^ 52 ≤ m) (large : 971 < e) :
    (2 ^ 1024 : ℚ) ≤ m * 2 ^ e := by
  have long : (2 ^ 52 : ℚ) ≤ m := by exact_mod_cast long
  calc (2 ^ 1024 : ℚ) = 2 ^ 52 * 2 ^ (972 : ℤ) := by
        rw [← zpow_natCast, ← zpow_natCast, ← zpow_add₀ two_ne_zero]; rfl
    _ ≤ m * 2 ^ (972 : ℤ) := mul_le_mul_of_nonneg_right long (two_zpow_pos _).le
    _ ≤ m * 2 ^ e := mul_le_mul_of_nonneg_left (two_zpow_le large) (Nat.cast_nonneg m)

/-- Packing keeps what is below the limit, and turns all else into an infinity. -/
theorem unpack_pack {u : UnpackedFloat} (finite : u.isFinite = true) (canonical : Canonical u)
    (nonneg : 0 ≤ unpackedValue u) :
    unpackedValue u < 2 ^ 1024 ∧ (Float.Model.pack u).unpack = u ∨
      2 ^ 1024 ≤ unpackedValue u ∧ (Float.Model.pack u).unpack = .infinity .positive := by
  rcases u with _ | _ | s | ⟨_ | _, m, e, positive⟩
  · cases finite
  · cases finite
  · exact .inl ⟨pow_pos two_pos 1024, unpack_packedZero s⟩
  · have above : (0 : ℚ) < m * 2 ^ e := mul_pos (by exact_mod_cast positive) (two_zpow_pos e)
    exact absurd nonneg (not_le.mpr (neg_neg_iff_pos.mpr above))
  · rcases le_or_gt e 971 with fits | large
    · exact .inl ⟨value_lt_limit canonical.1 fits, unpack_pack_fits positive canonical fits⟩
    · exact .inr ⟨limit_le_value (canonical.2.2 (by omega)) large,
        unpack_pack_large positive large⟩

theorem Stands.nearest {r : ℚ} {u : UnpackedFloat} (h : Stands r u) (rounded : Rounded v r)
    (packed : x.toModel.unpack = (Float.Model.pack u).unpack) : Nearest v x := by
  refine ⟨r, rounded, ?_⟩
  rw [isFinite_iff, Binary.value, packed]
  rcases unpack_pack h.finite h.canonical (h.value.symm ▸ rounded.nonneg) with
    ⟨below, same⟩ | ⟨above, infinite⟩
  · rw [same]
    exact ⟨iff_of_true h.finite (h.value ▸ below), fun _ => h.value⟩
  · rw [infinite]
    exact ⟨iff_of_false Bool.false_ne_true (not_lt.mpr (h.value ▸ above)), nofun⟩

theorem stands_value (finite : Scalar.isFinite x = true) : Stands (value x) x.toModel.unpack :=
  ⟨(isFinite_iff x).mp finite, canonical_unpack _, rfl⟩

theorem nearest_add (finiteX : Scalar.isFinite x = true) (finiteY : Scalar.isFinite y = true)
    (nonneg : 0 ≤ value x + value y) : Nearest (value x + value y) (x + y) := by
  obtain ⟨r, rounded, stands⟩ := add_stands (stands_value finiteX) (stands_value finiteY) nonneg
  exact stands.nearest rounded rfl

theorem nearest_sub (finiteX : Scalar.isFinite x = true) (finiteY : Scalar.isFinite y = true)
    (nonneg : 0 ≤ value x - value y) : Nearest (value x - value y) (x - y) := by
  obtain ⟨r, rounded, stands⟩ := sub_stands (stands_value finiteX) (stands_value finiteY) nonneg
  exact stands.nearest rounded rfl

theorem nearest_div (finiteX : Scalar.isFinite x = true) (finiteY : Scalar.isFinite y = true)
    (nonneg : 0 ≤ value x) (positive : 0 < value y) : Nearest (value x / value y) (x / y) := by
  obtain ⟨r, rounded, stands⟩ :=
    div_stands (stands_value finiteX) (stands_value finiteY) nonneg positive
  exact stands.nearest rounded rfl

theorem value_nonneg (h : Scalar.zero ≤ x) : 0 ≤ value x := by
  have nonneg := (zero_le_iff x).mp h
  rw [value]
  rcases hx : x.toModel.unpack with _ | _ | _ | ⟨_ | _, m, e, hm⟩ <;> rw [hx] at nonneg
  · exact le_rfl
  · exact le_rfl
  · exact le_rfl
  · cases nonneg
  · exact mul_nonneg (Nat.cast_nonneg m) (two_zpow_pos e).le

theorem value_pos (finite : Scalar.isFinite x = true) (h : Scalar.zero < x) : 0 < value x := by
  obtain ⟨m, e, hm, unpacked⟩ := positive_finite ((isFinite_iff x).mp finite) h
  rw [value, unpacked]
  exact mul_pos (by exact_mod_cast hm) (two_zpow_pos e)

/-- The largest number. -/
def largest : ℚ := (2 ^ 53 - 1) * 2 ^ 971

theorem exponent_unpack_le {x : Float.Model} {s : Sign} {m : ℕ} {e : ℤ} {hm : 0 < m}
    (h : x.unpack = .finite s m e hm) : e ≤ 971 := by
  unfold Float.Model.unpack UnpackedFloat.unpack at h
  extract_lets mantissa exponent scale sign at h
  have bias : scale = (exponent.toNat : Int) - 1075 := rfl
  have bound : exponent.toNat < 2 ^ 11 := exponent.isLt
  split at h
  · split at h <;> cases h
  · split at h
    case isTrue bottom =>
      split at h
      · cases h
      · have same := (UnpackedFloat.finite.inj h).2.2
        have least : scale = -1075 := by simp [bias, bottom]
        omega
    case isFalse top _ =>
      have same := (UnpackedFloat.finite.inj h).2.2
      have notTop : exponent.toNat ≠ 2047 := fun same => top (BitVec.eq_of_toNat_eq same)
      omega

/-- Packing a number that was unpacked gives the number back. -/
theorem pack_unpack {x : Float.Model} (number : x.unpack ≠ .notANumber) :
    Float.Model.pack x.unpack = x := by
  apply unpack_injective
  rcases h : x.unpack with s | _ | s | ⟨s, m, e, positive⟩
  · exact unpack_packedInfinity s
  · exact absurd h number
  · exact unpack_packedZero s
  · exact unpack_pack_fits positive (h ▸ canonical_unpack x) (exponent_unpack_le h)

theorem value_le_largest (x : Float) : value x ≤ largest := by
  have canonical := canonical_unpack x.toModel
  have nonneg : 0 ≤ largest := mul_nonneg (by norm_num) (by positivity)
  rw [value]
  rcases hx : x.toModel.unpack with _ | _ | _ | ⟨_ | _, m, e, hm⟩ <;> rw [hx] at canonical
  · exact nonneg
  · exact nonneg
  · exact nonneg
  · have above : (0 : ℚ) ≤ m * 2 ^ e := mul_nonneg (Nat.cast_nonneg m) (two_zpow_pos e).le
    exact (neg_nonpos.mpr above).trans nonneg
  · have mantissa : (m : ℚ) ≤ 2 ^ 53 - 1 := by
      have short : (m : ℚ) + 1 ≤ 2 ^ 53 := by exact_mod_cast canonical.1
      linarith
    have power : (2 : ℚ) ^ e ≤ 2 ^ (971 : ℤ) := two_zpow_le (exponent_unpack_le hx)
    exact mul_le_mul mantissa power (two_zpow_pos e).le (by norm_num)

theorem largest_lt_limit : largest < 2 ^ 1024 := by
  have unit : (0 : ℚ) < 2 ^ 971 := by positivity
  have limit : (2 : ℚ) ^ 1024 = 2 ^ 53 * 2 ^ 971 := by rw [← pow_add]
  rw [limit]
  exact mul_lt_mul_of_pos_right (by norm_num) unit

/-- One more than the largest number is not rounded to infinity. -/
theorem rounded_largest_add_one : Rounded (largest + 1) largest := by
  have unit : (1 : ℚ) < 2 ^ (971 : ℤ) := one_lt_zpow₀ one_lt_two (by decide)
  have whole : largest = (2 ^ 53 - 1) * 2 ^ (971 : ℤ) := rfl
  have log : Int.log 2 (largest + 1) = 1023 := by
    have low : (2 : ℚ) ^ (1023 : ℤ) = 2 ^ 52 * 2 ^ (971 : ℤ) := by
      rw [← zpow_natCast, ← zpow_add₀ two_ne_zero]; rfl
    have high : (2 : ℚ) ^ (1023 + 1 : ℤ) = 2 ^ 53 * 2 ^ (971 : ℤ) := by
      rw [← zpow_natCast, ← zpow_add₀ two_ne_zero]; rfl
    apply log_eq
    · rw [low, whole]
      generalize (2 : ℚ) ^ (971 : ℤ) = t at unit
      linarith
    · rw [high, whole]
      generalize (2 : ℚ) ^ (971 : ℤ) = t at unit
      linarith
  have grain : grain (largest + 1) = 971 := by
    rw [grain, log]
    rfl
  refine ⟨⟨2 ^ 53 - 1, false, true⟩, ?_, ?_⟩
  · have part : (largest + 1) / 2 ^ (971 : ℤ) = 2 ^ 53 - 1 + 1 / 2 ^ (971 : ℤ) := by
      rw [whole, add_div, mul_div_cancel_right₀ _ (zero_lt_one.trans unit).ne']
    have small : (2 : ℚ) < 2 ^ (971 : ℤ) := by
      calc (2 : ℚ) = 2 ^ (1 : ℤ) := (zpow_one 2).symm
        _ < 2 ^ (971 : ℤ) := zpow_lt_zpow_right₀ one_lt_two (by decide)
    have above : (0 : ℚ) < 1 / 2 ^ (971 : ℤ) := one_div_pos.mpr (zero_lt_one.trans unit)
    have below : (1 : ℚ) / 2 ^ (971 : ℤ) < 1 / 2 := one_div_lt_one_div_of_lt two_pos small
    rw [grain, part]
    generalize (1 : ℚ) / 2 ^ (971 : ℤ) = t at above below
    simp only [Represents]
    push_cast
    constructor <;> linarith
  · rw [grain, whole]
    norm_num [ExtendedMantissa.roundedMantissa, ExtendedMantissa.accuracy,
      Accuracy.roundToNearestEven]

theorem rounded_one : Rounded 1 1 := by
  have one := rounded_self (m := 2 ^ 52) (e := -52) (by decide) (by decide) (fun _ => le_rfl)
    (by decide)
  norm_num at one
  exact one

/-- A part of a whole is at most one. -/
theorem part_le_one (finite : Scalar.isFinite x = true) (finite' : Scalar.isFinite y = true)
    (nonneg : 0 ≤ value x) (positive : 0 < value y) (part : value x ≤ value y) :
    Scalar.isFinite (x / y) = true ∧ value (x / y) ≤ 1 := by
  obtain ⟨r, rounded, finiteQuotient, valueQuotient⟩ :=
    nearest_div finite finite' nonneg positive
  have quotient := (div_le_one positive).mpr part
  have small := rounded.mono rounded_one (div_nonneg nonneg positive.le) quotient
  have finite := finiteQuotient.mpr (small.trans_lt (one_lt_pow₀ one_lt_two (by decide)))
  exact ⟨finite, (valueQuotient finite).trans_le small⟩

/-- One more does not take a finite number to infinity. -/
theorem isFinite_add_of_le_one (finite : Scalar.isFinite x = true)
    (finite' : Scalar.isFinite y = true) (nonneg : 0 ≤ value x) (nonneg' : 0 ≤ value y)
    (small : value y ≤ 1) : Scalar.isFinite (x + y) = true := by
  have sum_nonneg := add_nonneg nonneg nonneg'
  obtain ⟨r, rounded, finiteSum, -⟩ := nearest_add finite finite' sum_nonneg
  have below := rounded.mono rounded_largest_add_one sum_nonneg
    (add_le_add (value_le_largest x) small)
  exact finiteSum.mpr (below.trans_lt largest_lt_limit)

theorem infinity_add {a : Float} (h : Scalar.zero ≤ a) : Scalar.infinity + a = Scalar.infinity := by
  have infinite : (Scalar.infinity : Float).toModel.unpack = .infinity .positive := by rfl
  have nonneg := (zero_le_iff a).mp h
  have sum : UnpackedFloat.add Format.binary64 (Scalar.infinity : Float).toModel.unpack
      a.toModel.unpack = .infinity .positive := by
    rw [infinite]
    rcases ha : a.toModel.unpack with (_ | _) | _ | _ | _ <;> rw [ha] at nonneg
    · cases nonneg
    · rfl
    · cases nonneg
    · rfl
    · rfl
  exact congrArg (fun u => Float.ofModel (Float.Model.pack u)) sum

instance : SharedScalar Float where
  finite_zero := by decide +kernel
  infinity_add := infinity_add
  finite_add_share := by
    intro d low a b high finite nonneg hlow hab hhigh finiteSpan positive
    obtain ⟨finiteHigh, finiteLow⟩ := SignedScalar.finite_of_sub finiteSpan
    have finiteA : Scalar.isFinite a = true :=
      Scalar.isFinite_of_between finiteLow finiteHigh hlow (OrderedScalar.le_trans hab hhigh)
    have finiteB : Scalar.isFinite b = true :=
      Scalar.isFinite_of_between finiteLow finiteHigh (OrderedScalar.le_trans hlow hab) hhigh
    have below := value_le_value finiteLow finiteA hlow
    have middle := value_le_value finiteA finiteB hab
    have above := value_le_value finiteB finiteHigh hhigh
    -- the gap is computed to be at most the span, hence the share to be at most one
    obtain ⟨finiteGap, part⟩ := (nearest_sub finiteB finiteA (sub_nonneg.mpr middle)).le
      (nearest_sub finiteHigh finiteLow (by linarith)) (sub_nonneg.mpr middle) (by linarith)
      finiteSpan
    have gap := SignedScalar.sub_nonneg finiteB finiteA hab
    obtain ⟨finiteShare, small⟩ :=
      part_le_one finiteGap finiteSpan (value_nonneg gap) (value_pos finiteSpan positive) part
    exact isFinite_add_of_le_one finite finiteShare (value_nonneg nonneg)
      (value_nonneg (SignedScalar.div_nonneg gap finiteSpan positive)) small

end Binary

end BoxSearch
