import BoxSearch.Proofs.Scalar.Sign

/-!
Unpacking a double precision number loses nothing.

Sign, exponent and mantissa can be read off the unpacked number, unless it is no number; and there
is only one valid pattern for what is not a number.
-/

namespace BoxSearch.Binary

open Float.Model Float.Model.UnpackedFloat

/-- Sign, exponent and mantissa make up the whole number. -/
theorem eq_of_parts {b b' : BitVec Format.binary64.numBits}
    (sign : unpackSign b = unpackSign b') (exponent : unpackExponent b = unpackExponent b')
    (mantissa : unpackMantissa b = unpackMantissa b') : b = b' := by
  have mantissaBits : Format.binary64.mantissaBitsWithoutImplicit = 52 := rfl
  have exponentBits : Format.binary64.exponentBits = 11 := rfl
  have bits : Format.binary64.numBits = 64 := rfl
  apply BitVec.eq_of_getLsbD_eq
  intro i hi
  rcases lt_or_ge i 52 with low | high
  · have same := congrArg (fun v => v.getLsbD i) mantissa
    simpa [unpackMantissa, mantissaBits, low] using same
  · rcases lt_or_ge i 63 with middle | top
    · have same := congrArg (fun v => v.getLsbD (i - 52)) exponent
      have back : 52 + (i - 52) = i := by omega
      have inside : i - 52 < 11 := by omega
      simpa [unpackExponent, mantissaBits, exponentBits, back, inside] using same
    · have last : i = 63 := by omega
      subst last
      have same := congrArg (fun v => v.getLsbD 0) sign
      simpa [unpackSign, mantissaBits, exponentBits] using same

theorem ofBitVec_injective : Function.Injective Sign.ofBitVec := by
  intro b b' h
  rcases BitVec.eq_zero_or_eq_one b with rfl | rfl <;>
    rcases BitVec.eq_zero_or_eq_one b' with rfl | rfl <;> first | rfl | cases h

theorem toNat_normal (mantissa : BitVec Format.binary64.mantissaBitsWithoutImplicit) :
    (1#1 ++ mantissa).toNat = 2 ^ 52 + mantissa.toNat := by
  rw [BitVec.toNat_append, ← Nat.shiftLeft_add_eq_or_of_lt mantissa.isLt]
  rfl

/-- What an unpacked number tells of the parts that it was read from. -/
def Parts (sign : Sign) (exponent : BitVec 11) (mantissa : BitVec 52) : UnpackedFloat → Prop
  | .infinity s => s = sign ∧ exponent = -1#11 ∧ mantissa = 0#52
  | .notANumber => exponent = -1#11 ∧ mantissa ≠ 0#52
  | .zero s => s = sign ∧ exponent = 0#11 ∧ mantissa = 0#52
  | .finite s m e _ => s = sign ∧ (exponent = 0#11 ∧ m = mantissa.toNat ∧ e = -1074 ∨
      m = 2 ^ 52 + mantissa.toNat ∧ e = exponent.toNat - 1075)

theorem parts_unpack (b : BitVec Format.binary64.numBits) :
    Parts (Sign.ofBitVec (unpackSign b)) (unpackExponent b) (unpackMantissa b)
      (UnpackedFloat.unpack Format.binary64 b) := by
  unfold UnpackedFloat.unpack
  extract_lets mantissa exponent scale sign
  have bias : scale = (exponent.toNat : Int) - 1075 := rfl
  split
  case isTrue top =>
    split
    case isTrue empty => exact ⟨rfl, top, empty⟩
    case isFalse filled => exact ⟨top, filled⟩
  case isFalse =>
    split
    case isTrue bottom =>
      split
      case isTrue empty => exact ⟨rfl, bottom, empty⟩
      case isFalse => exact ⟨rfl, .inl ⟨bottom, rfl, by simp [bias, bottom]⟩⟩
    case isFalse => exact ⟨rfl, .inr ⟨toNat_normal mantissa, bias⟩⟩

/-- The parts of what is a number can be told from the number. -/
theorem Parts.agree {s s' : Sign} {e e' : BitVec 11} {m m' : BitVec 52} {u : UnpackedFloat}
    (h : Parts s e m u) (h' : Parts s' e' m' u) (number : u ≠ .notANumber) :
    s = s' ∧ e = e' ∧ m = m' := by
  have short := m.isLt
  have short' := m'.isLt
  cases u with
  | infinity =>
    obtain ⟨rfl, rfl, rfl⟩ := h
    obtain ⟨rfl, rfl, rfl⟩ := h'
    exact ⟨rfl, rfl, rfl⟩
  | notANumber => exact absurd rfl number
  | zero =>
    obtain ⟨rfl, rfl, rfl⟩ := h
    obtain ⟨rfl, rfl, rfl⟩ := h'
    exact ⟨rfl, rfl, rfl⟩
  | finite =>
    obtain ⟨rfl, h⟩ := h
    obtain ⟨rfl, h'⟩ := h'
    refine ⟨rfl, ?_, BitVec.eq_of_toNat_eq (by omega)⟩
    rcases h with ⟨rfl, small, -⟩ | ⟨long, low⟩
    · rcases h' with ⟨rfl, -⟩ | ⟨long, -⟩
      · rfl
      · omega
    · exact BitVec.eq_of_toNat_eq (by omega)

/-- Numbers that unpack to the same are the same. -/
theorem unpack_injective : Function.Injective Float.Model.unpack := by
  intro x y h
  suffices same : x.toBits.toBitVec = y.toBits.toBitVec by
    cases x
    cases y
    simp_all [UInt64.toBitVec_inj]
  have partsX := parts_unpack x.toBits.toBitVec
  have partsY := parts_unpack y.toBits.toBitVec
  change UnpackedFloat.unpack _ _ = UnpackedFloat.unpack _ _ at h
  rw [← h] at partsY
  -- there is only one valid pattern for what is not a number
  by_cases nan : UnpackedFloat.unpack Format.binary64 x.toBits.toBitVec = .notANumber
  · rw [nan] at partsX partsY
    rw [x.valid.eq_packedNaN partsX.1 partsX.2, y.valid.eq_packedNaN partsY.1 partsY.2]
  · obtain ⟨sign, exponent, mantissa⟩ := partsX.agree partsY nan
    exact eq_of_parts (ofBitVec_injective sign) exponent mantissa

end BoxSearch.Binary
