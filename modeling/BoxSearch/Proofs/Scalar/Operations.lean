import BoxSearch.Proofs.Scalar.Rounding
import BoxSearch.Proofs.Scalar.Unpack

/-!
Sums, differences and quotients of double precision numbers are the exact results, rounded.

An operation rounds the exact result to the digits that the format keeps, and packing turns what is
beyond the largest number into an infinity. Nothing else is lost.
-/

namespace BoxSearch.Binary

open Float.Model Float.Model.UnpackedFloat

section Packing

variable {s : Sign} {m : ℕ} {e : ℤ} {u : UnpackedFloat}

theorem ofBitVec_toBitVec (s : Sign) : Sign.ofBitVec s.toBitVec = s := by
  cases s <;> rfl

theorem unpack_normal {exponent : BitVec 11} (mantissa : BitVec 52) (above : exponent ≠ 0#_)
    (below : exponent ≠ -1#_) :
    UnpackedFloat.unpack Format.binary64 (packComponents Format.binary64 s exponent mantissa) =
      .finite s (2 ^ 52 + mantissa.toNat) (exponent.toNat - 1075) (by omega) := by
  unfold UnpackedFloat.unpack
  simp only [unpackMantissa_packComponents, unpackExponent_packComponents,
    unpackSign_packComponents, ofBitVec_toBitVec, if_neg above, if_neg below]
  congr 1
  exact toNat_normal mantissa

theorem unpack_subnormal {mantissa : BitVec 52} (some : 0 < mantissa.toNat) :
    UnpackedFloat.unpack Format.binary64 (packComponents Format.binary64 s 0#11 mantissa) =
      .finite s mantissa.toNat (-1074) some := by
  have filled : mantissa ≠ 0#52 := by
    rintro rfl
    exact absurd some (by decide)
  have bottom : (0#11) ≠ -1#_ := by decide
  unfold UnpackedFloat.unpack
  simp only [unpackMantissa_packComponents, unpackExponent_packComponents,
    unpackSign_packComponents, ofBitVec_toBitVec, if_neg bottom, dif_neg filled, if_true]
  rfl

/-- Packing loses nothing of a number in the shape that the format asks for. -/
theorem unpack_pack_fits (positive : 0 < m) (canonical : Canonical (.finite s m e positive))
    (fits : e ≤ 971) :
    (Float.Model.pack (.finite s m e positive)).unpack = .finite s m e positive := by
  change UnpackedFloat.unpack Format.binary64 (UnpackedFloat.pack Format.binary64 _) = _
  obtain ⟨short, least, long⟩ := canonical
  unfold UnpackedFloat.pack
  extract_lets length biased
  have bias : biased = (e + 1023 + 52).toNat := rfl
  have inside : ¬2 ^ Format.binary64.exponentBits ≤ biased + 1 := by
    change ¬2 ^ 11 ≤ biased + 1
    omega
  have lead : length + 1 = Format.binary64.mantissaBits ↔ 2 ^ 52 ≤ m := by
    have below : m.log2 < 53 := (Nat.log2_lt positive.ne').mpr short
    change m.log2 + 1 = 53 ↔ _
    rw [← Nat.le_log2 positive.ne']
    omega
  rw [if_neg inside]
  split
  case isTrue full =>
    have full := lead.mp full
    have exponent : (BitVec.ofNat 11 biased).toNat = biased := by
      rw [BitVec.toNat_ofNat, Nat.mod_eq_of_lt (by omega)]
    have mantissa : (BitVec.ofNat 52 m).toNat = m - 2 ^ 52 := by
      rw [BitVec.toNat_ofNat]
      omega
    have above : BitVec.ofNat 11 biased ≠ 0#11 := by
      intro bottom
      have value : biased = 0 := exponent.symm.trans (congrArg BitVec.toNat bottom)
      omega
    have below : BitVec.ofNat 11 biased ≠ -1#11 := by
      intro top
      have value : biased = 2047 := exponent.symm.trans (congrArg BitVec.toNat top)
      omega
    refine (unpack_normal (BitVec.ofNat 52 m) above below).trans ?_
    congr 1
    · omega
    · omega
  case isFalse short =>
    have short := mt lead.mpr short
    have mantissa : (BitVec.ofNat 52 m).toNat = m := by
      rw [BitVec.toNat_ofNat, Nat.mod_eq_of_lt (by omega)]
    refine (unpack_subnormal (mantissa.symm ▸ positive)).trans ?_
    congr 1
    omega

theorem unpack_pack_large (positive : 0 < m) (large : 971 < e) :
    (Float.Model.pack (.finite s m e positive)).unpack = .infinity s := by
  change UnpackedFloat.unpack Format.binary64 (UnpackedFloat.pack Format.binary64 _) = _
  unfold UnpackedFloat.pack
  extract_lets length biased
  have bias : biased = (e + 1023 + 52).toNat := rfl
  have beyond : 2 ^ Format.binary64.exponentBits ≤ biased + 1 := by
    change 2 ^ 11 ≤ biased + 1
    omega
  rw [if_pos beyond, unpack_packedInfinity]

end Packing

section Rounding

variable {m : ℕ} {e : ℤ} {accuracy : Accuracy} {v r : ℚ} {u w : UnpackedFloat}

/-- An unpacked number that stands for `r`, with as many digits as the format keeps. Its exponent
may be too large to be packed. -/
structure Stands (r : ℚ) (u : UnpackedFloat) : Prop where
  finite : u.isFinite = true
  canonical : Canonical u
  value : unpackedValue u = r

/-- A mantissa that rounding filled up is even, so that shifting it once more loses nothing. -/
theorem grain_filled (positive : 0 < m) (short : m ≤ 2 ^ 53) (least : -1074 ≤ e)
    (long : e = -1074 ∨ 2 ^ 52 ≤ m) :
    e ≤ grain (m * 2 ^ e) ∧ ∃ k : ℕ, (m * 2 ^ e : ℚ) = k * 2 ^ grain (m * 2 ^ e) := by
  have log : grain (m * 2 ^ e) = max (m.log2 + e - 52) (-1074) := by rw [grain, log_scaled positive]
  rcases short.lt_or_eq with short | rfl
  · have below : m.log2 < 53 := (Nat.log2_lt positive.ne').mpr short
    have same : grain (m * 2 ^ e) = e := by
      rcases long with rfl | long
      · omega
      · have above : 52 ≤ m.log2 := (Nat.le_log2 positive.ne').mpr long
        omega
    exact ⟨same.ge, m, by rw [same]⟩
  · have next : grain ((2 ^ 53 : ℕ) * 2 ^ e) = e + 1 := by
      rw [log, Nat.log2_two_pow]
      omega
    refine ⟨by omega, 2 ^ 52, ?_⟩
    rw [next, zpow_add_one₀ two_ne_zero]
    push_cast
    ring

/-- The second shift of a rounding changes no value. -/
theorem shift_filled (positive : 0 < m) (short : m ≤ 2 ^ 53) (least : -1074 ≤ e)
    (long : e = -1074 ∨ 2 ^ 52 ≤ m) :
    ∃ em f, shiftToTargetExponent Format.binary64 m e .exact = (em, f) ∧
      (em.mantissa * 2 ^ f : ℚ) = m * 2 ^ e ∧ em.mantissa < 2 ^ 53 ∧ -1074 ≤ f ∧
      (-1074 < f → 2 ^ 52 ≤ em.mantissa) := by
  have unit := two_zpow_pos e
  have above : (0 : ℚ) < m * 2 ^ e := mul_pos (by exact_mod_cast positive) unit
  have exact : Represents (.ofMantissaAndAccuracy m .exact) (m * 2 ^ e / 2 ^ e) := by
    rw [mul_div_cancel_right₀ _ unit.ne']
    exact represents_natCast m
  obtain ⟨fine, k, whole⟩ := grain_filled positive short least long
  obtain ⟨em, shifted, hem⟩ := shiftToTargetExponent_represents above exact fine
  obtain ⟨bound, long⟩ := hem.mantissa_bounds above
  have ⟨low, high⟩ := hem.floor
  rw [div_eq_of_eq_mul (two_zpow_pos _).ne' whole] at low high
  have same : em.mantissa = k := by
    have low : em.mantissa ≤ k := by exact_mod_cast low
    have high : k < em.mantissa + 1 := by exact_mod_cast high
    omega
  exact ⟨em, _, shifted, by rw [same, ← whole], bound, le_grain _, fun more =>
    long.resolve_left more.ne'⟩

theorem shift_zero (e : ℤ) :
    (shiftToTargetExponent Format.binary64 0 e .exact).1.mantissa = 0 := by
  have represents := (represents_natCast 0).shiftRight
    (Format.binary64.targetExponent (totalExponent 0 e) - e).toNat
  have low := represents.floor.1
  rw [Nat.cast_zero, zero_div] at low
  exact Nat.le_zero.mp (by exact_mod_cast low)

theorem roundWithAccuracy_stands (positive : 0 < v)
    (represents : Represents (.ofMantissaAndAccuracy m accuracy) (v / 2 ^ e)) (fine : e ≤ grain v) :
    ∃ r, Rounded v r ∧
      Stands r (roundWithAccuracy Format.binary64 .positive m e accuracy) := by
  obtain ⟨em, first, hem⟩ := shiftToTargetExponent_represents positive represents fine
  refine ⟨_, ⟨em, hem, rfl⟩, ?_⟩
  have bounds := roundedMantissa_bounds em
  obtain ⟨short, long⟩ := hem.mantissa_bounds positive
  unfold roundWithAccuracy
  rw [first]
  dsimp only
  rcases Nat.eq_zero_or_pos em.roundedMantissa with none | some
  · rw [none, dif_pos (shift_zero _)]
    exact ⟨rfl, trivial, by simp [unpackedValue]⟩
  · obtain ⟨en, f, second, same, canonical⟩ := shift_filled some (by omega) (le_grain v)
      (long.imp_right fun h => h.trans bounds.1)
    have filled : en.mantissa ≠ 0 := by
      intro none
      rw [none, Nat.cast_zero, zero_mul] at same
      have positive : (0 : ℚ) < em.roundedMantissa * 2 ^ grain v :=
        mul_pos (by exact_mod_cast some) (two_zpow_pos _)
      exact positive.ne same
    rw [dif_neg (by rwa [second])]
    simp only [second]
    exact ⟨rfl, canonical, same⟩

theorem shifted_value (m n : ℕ) (e : ℤ) : ((m <<< n : ℕ) * 2 ^ (e - n) : ℚ) = m * 2 ^ e := by
  rw [Nat.shiftLeft_eq, zpow_sub₀ two_ne_zero, zpow_natCast]
  push_cast
  field_simp

theorem represents_shifted (m n : ℕ) (e : ℤ) :
    Represents (.ofMantissaAndAccuracy (m <<< n) .exact) (m * 2 ^ e / 2 ^ (e - n)) := by
  rw [← shifted_value m n e, mul_div_cancel_right₀ _ (two_zpow_pos _).ne']
  exact represents_natCast _

theorem round_stands (positive : 0 < m) :
    ∃ r, Rounded (m * 2 ^ e) r ∧ Stands r (round Format.binary64 .positive m e) := by
  have unit := two_zpow_pos e
  have above : (0 : ℚ) < m * 2 ^ e := mul_pos (by exact_mod_cast positive) unit
  have target : Format.binary64.targetExponent (totalExponent m e) = grain (m * 2 ^ e) := by
    rw [grain, log_scaled positive, Format.targetExponent, totalExponent]
    simp only [Format.mantissaBits, Format.minExponent]
    omega
  unfold UnpackedFloat.round
  simp only [target, decreaseExponent]
  apply roundWithAccuracy_stands above
  · exact represents_shifted m _ e
  · omega

theorem stands_zero (s : Sign) : Stands 0 (.zero s) :=
  ⟨rfl, trivial, rfl⟩

theorem rounded_zero : Rounded 0 0 := by
  refine ⟨.ofMantissaAndAccuracy 0 .exact, ?_, ?_⟩
  · rw [zero_div]
    exact represents_natCast 0
  · exact (zero_mul _).symm

theorem normalize_stands {z : ℤ} (nonneg : 0 ≤ z) :
    ∃ r, Rounded (z * 2 ^ e) r ∧ Stands r (normalize Format.binary64 z e .positive) := by
  unfold UnpackedFloat.normalize
  split
  case h_1 below => exact absurd nonneg (Int.not_le.mpr (Int.compare_eq_lt.mp below))
  case h_2 same =>
    obtain rfl : z = 0 := Int.compare_eq_eq.mp same
    rw [Int.cast_zero, zero_mul]
    exact ⟨0, rounded_zero, stands_zero _⟩
  case h_3 above =>
    have above : 0 < z := Int.compare_eq_gt.mp above
    obtain ⟨m, rfl⟩ := Int.eq_ofNat_of_zero_le nonneg
    exact round_stands (by simpa using above)

/-- What the format can hold is its own rounding. -/
theorem Stands.rounded (h : Stands r u) (nonneg : 0 ≤ r) : Rounded r r := by
  obtain ⟨finite, canonical, rfl⟩ := h
  rcases u with _ | _ | s | ⟨_ | _, m, e, positive⟩
  · cases finite
  · cases finite
  · exact rounded_zero
  · have above : (0 : ℚ) < m * 2 ^ e := mul_pos (by exact_mod_cast positive) (two_zpow_pos e)
    exact absurd nonneg (not_le.mpr (neg_neg_iff_pos.mpr above))
  · exact rounded_self canonical.1 canonical.2.1 canonical.2.2 positive

/-- A mantissa with its sign, shifted to a smaller exponent. -/
theorem apply_value {s : Sign} {k : ℤ} (positive : 0 < m) (smaller : k ≤ e) :
    (s.apply (m <<< (e - k).toNat : ℕ) * 2 ^ k : ℚ) = unpackedValue (.finite s m e positive) := by
  have shifted := shifted_value m (e - k).toNat e
  rw [Int.toNat_of_nonneg (by omega), sub_sub_cancel] at shifted
  cases s
  · change ((-(m <<< (e - k).toNat : ℕ) : ℤ) : ℚ) * 2 ^ k = -(m * 2 ^ e)
    rw [Int.cast_neg, Int.cast_natCast, neg_mul, shifted]
  · exact shifted

theorem add_stands {a b : ℚ} (hu : Stands a u) (hw : Stands b w) (nonneg : 0 ≤ a + b) :
    ∃ r, Rounded (a + b) r ∧ Stands r (UnpackedFloat.add Format.binary64 u w) := by
  rcases u with _ | _ | s | ⟨s, m, e, hm⟩
  · cases hu.finite
  · cases hu.finite
  · obtain rfl : 0 = a := hu.value
    rw [zero_add] at nonneg ⊢
    rcases w with _ | _ | t | ⟨t, n, f, hn⟩
    · cases hw.finite
    · cases hw.finite
    · obtain rfl : 0 = b := hw.value
      refine ⟨0, rounded_zero, ?_⟩
      cases s <;> cases t <;> exact stands_zero _
    · exact ⟨b, hw.rounded nonneg, hw⟩
  · rcases w with _ | _ | t | ⟨t, n, f, hn⟩
    · cases hw.finite
    · cases hw.finite
    · obtain rfl : 0 = b := hw.value
      rw [add_zero] at nonneg ⊢
      exact ⟨a, hu.rounded nonneg, hu⟩
    · rw [← hu.value, ← hw.value, ← apply_value hm (Int.min_le_left e f),
        ← apply_value hn (Int.min_le_right e f), ← add_mul, ← Int.cast_add] at nonneg ⊢
      apply normalize_stands
      exact_mod_cast nonneg_of_mul_nonneg_left nonneg (two_zpow_pos _)

theorem sub_stands {a b : ℚ} (hu : Stands a u) (hw : Stands b w) (nonneg : 0 ≤ a - b) :
    ∃ r, Rounded (a - b) r ∧ Stands r (UnpackedFloat.sub Format.binary64 u w) := by
  rcases u with _ | _ | s | ⟨s, m, e, hm⟩
  · cases hu.finite
  · cases hu.finite
  · obtain rfl : 0 = a := hu.value
    rcases w with _ | _ | t | ⟨t, n, f, hn⟩
    · cases hw.finite
    · cases hw.finite
    · obtain rfl : 0 = b := hw.value
      rw [sub_zero]
      refine ⟨0, rounded_zero, ?_⟩
      cases s <;> cases t <;> exact stands_zero _
    · have opposite : Stands (0 - b) (.finite (-t) n f hn) := by
        refine ⟨rfl, hw.canonical, ?_⟩
        rw [← hw.value, zero_sub]
        cases t
        · exact (neg_neg _).symm
        · rfl
      exact ⟨0 - b, opposite.rounded nonneg, opposite⟩
  · rcases w with _ | _ | t | ⟨t, n, f, hn⟩
    · cases hw.finite
    · cases hw.finite
    · obtain rfl : 0 = b := hw.value
      rw [sub_zero] at nonneg ⊢
      exact ⟨a, hu.rounded nonneg, hu⟩
    · rw [← hu.value, ← hw.value, ← apply_value hm (Int.min_le_left e f),
        ← apply_value hn (Int.min_le_right e f), ← sub_mul, ← Int.cast_sub] at nonneg ⊢
      apply normalize_stands
      exact_mod_cast nonneg_of_mul_nonneg_left nonneg (two_zpow_pos _)

/-- The quotient of two mantissas has at least the digits that the format keeps. -/
theorem divCore_stands {n : ℕ} {f : ℤ} (hm : 0 < m) (hn : 0 < n) :
    ∃ r, Rounded (m * 2 ^ e / (n * 2 ^ f)) r ∧
      Stands r (UnpackedFloat.div Format.binary64 (.finite .positive m e hm)
        (.finite .positive n f hn)) := by
  have above : (0 : ℚ) < m * 2 ^ e := mul_pos (by exact_mod_cast hm) (two_zpow_pos e)
  have below : (0 : ℚ) < n * 2 ^ f := mul_pos (by exact_mod_cast hn) (two_zpow_pos f)
  have digits : m.log2 + e - (n.log2 + f + 1) ≤ Int.log 2 (m * 2 ^ e / (n * 2 ^ f) : ℚ) := by
    apply (Int.zpow_le_iff_le_log Nat.one_lt_two (div_pos above below)).mp
    rw [Nat.cast_ofNat, le_div_iff₀ below, zpow_sub₀ two_ne_zero, div_mul_comm,
      ← log_scaled (e := e) hm, ← log_scaled (e := f) hn]
    have low := Int.zpow_log_le_self Nat.one_lt_two above
    have high := (Int.lt_zpow_succ_log_self Nat.one_lt_two (n * 2 ^ f : ℚ)).le
    have part := (div_le_one (two_zpow_pos _)).mpr high
    exact (mul_le_of_le_one_left (two_zpow_pos _).le part).trans low
  let target := min (e - f)
    (Format.binary64.targetExponent (totalExponent m e - totalExponent n f))
  let shift := (e - f - target).toNat
  have shifted : (shift : ℤ) = e - f - target := Int.toNat_of_nonneg (by omega)
  change ∃ r, Rounded _ r ∧ Stands r (roundWithAccuracy Format.binary64 .positive
    (m <<< shift / n) target (accuracyOfFraction (m <<< shift % n) n))
  apply roundWithAccuracy_stands (div_pos above below)
  · have quotient : (m * 2 ^ e / (n * 2 ^ f) / 2 ^ target : ℚ) = (m <<< shift : ℕ) / n := by
      rw [div_div, mul_assoc, ← zpow_add₀ two_ne_zero, mul_comm (n : ℚ), ← div_div,
        ← shifted_value m shift e, shifted, show e - (e - f - target) = f + target by ring,
        mul_div_cancel_right₀ _ (two_zpow_pos _).ne']
    rw [quotient]
    exact represents_fraction hn
  · have bound : target ≤ max (m.log2 + e - n.log2 - f - 53) (-1074) := by
      refine (min_le_right _ _).trans (le_of_eq ?_)
      simp only [Format.targetExponent, totalExponent, Format.mantissaBits, Format.minExponent]
      omega
    rw [grain]
    omega

theorem div_stands {a b : ℚ} (hu : Stands a u) (hw : Stands b w) (nonneg : 0 ≤ a)
    (positive : 0 < b) :
    ∃ r, Rounded (a / b) r ∧ Stands r (UnpackedFloat.div Format.binary64 u w) := by
  rcases w with _ | _ | t | ⟨_ | _, n, f, hn⟩
  · cases hw.finite
  · cases hw.finite
  · exact absurd hw.value positive.ne
  · have below : (0 : ℚ) < n * 2 ^ f := mul_pos (by exact_mod_cast hn) (two_zpow_pos f)
    rw [← hw.value] at positive
    exact absurd positive (not_lt.mpr (neg_nonpos.mpr below.le))
  · rcases u with _ | _ | s | ⟨_ | _, m, e, hm⟩
    · cases hu.finite
    · cases hu.finite
    · obtain rfl : 0 = a := hu.value
      rw [zero_div]
      exact ⟨0, rounded_zero, stands_zero _⟩
    · have below : (0 : ℚ) < m * 2 ^ e := mul_pos (by exact_mod_cast hm) (two_zpow_pos e)
      rw [← hu.value] at nonneg
      exact absurd nonneg (not_le.mpr (neg_neg_iff_pos.mpr below))
    · rw [← hu.value, ← hw.value]
      exact divCore_stands hm hn

end Rounding

end BoxSearch.Binary
