import BoxSearch.Proofs.Scalar.Binary
import Mathlib

/-!
Which results of arithmetic are at least zero.

Crowding distances are sums of quotients of differences. The laws below are what it takes for such a
sum to be a number: rounding never changes a sign, and a difference that is finite has finite
operands. For double precision numbers they are read off the operations on unpacked numbers, of
which packing and unpacking lose neither the sign nor the kind.
-/

namespace BoxSearch

/-- Arithmetic respects signs, as long as no infinities are subtracted. -/
class SignedScalar (α : Type) [Scalar α] : Prop extends OrderedScalar α where
  zero_le_zero : (Scalar.zero : α) ≤ Scalar.zero
  finite_of_sub {a b : α} : Scalar.isFinite (a - b) = true →
    Scalar.isFinite a = true ∧ Scalar.isFinite b = true
  sub_nonneg {a b : α} : Scalar.isFinite a = true → Scalar.isFinite b = true → b ≤ a →
    Scalar.zero ≤ a - b
  add_nonneg {a b : α} : Scalar.zero ≤ a → Scalar.zero ≤ b → Scalar.zero ≤ a + b
  div_nonneg {a b : α} : Scalar.zero ≤ a → Scalar.isFinite b = true → Scalar.zero < b →
    Scalar.zero ≤ a / b

namespace Binary

open Float.Model Float.Model.UnpackedFloat

/-- At least zero. The sign of a zero does not count. -/
def Nonnegative : UnpackedFloat → Prop
  | .infinity sign => sign = .positive
  | .notANumber => False
  | .zero _ => True
  | .finite sign _ _ _ => sign = .positive

/-- The mantissa is as long as the format allows, unless the exponent is the least one. -/
def Canonical : UnpackedFloat → Prop
  | .finite _ mantissa exponent _ =>
    mantissa < 2 ^ 53 ∧ -1074 ≤ exponent ∧ (-1074 < exponent → 2 ^ 52 ≤ mantissa)
  | _ => True

theorem canonical_unpack (x : Float.Model) : Canonical x.unpack := by
  unfold Float.Model.unpack UnpackedFloat.unpack
  extract_lets mantissa exponent scale sign
  have bias : scale = (exponent.toNat : Int) - 1075 := rfl
  have short : mantissa.toNat < 2 ^ 52 := mantissa.isLt
  split
  · split <;> trivial
  · split
    case isTrue bottom =>
      split
      · trivial
      · have least : scale = -1075 := by simp [bias, bottom]
        exact ⟨by omega, by omega, by omega⟩
    case isFalse bottom =>
      have long : (1#1 ++ mantissa).toNat = 2 ^ 52 + mantissa.toNat := by
        rw [BitVec.toNat_append, ← Nat.shiftLeft_add_eq_or_of_lt mantissa.isLt]
        rfl
      have positive : 0 < exponent.toNat := by
        apply Nat.pos_of_ne_zero
        intro zero
        exact bottom (BitVec.eq_of_toNat_eq zero)
      exact ⟨by omega, by omega, by omega⟩

theorem unpackSign_packComponents {spec : Format} {sign exponent mantissa} :
    unpackSign (packComponents spec sign exponent mantissa) = sign.toBitVec := by
  ext i hi
  have first : i = 0 := by omega
  subst first
  have beyond : ¬spec.mantissaBitsWithoutImplicit + spec.exponentBits
      < spec.mantissaBitsWithoutImplicit := by omega
  simp [unpackSign, packComponents, BitVec.getLsbD_eq_getElem, BitVec.getLsbD_append, beyond,
    BitVec.getElem_append]

theorem unpack_packedZero (sign : Sign) :
    UnpackedFloat.unpack Format.binary64 (packedZero Format.binary64 sign) = .zero sign := by
  cases sign <;> rfl

theorem unpack_packedInfinity (sign : Sign) :
    UnpackedFloat.unpack Format.binary64 (packedInfinity Format.binary64 sign) =
      .infinity sign := by
  cases sign <;> rfl

theorem nonnegative_unpack_packComponents {spec : Format} {exponent : BitVec spec.exponentBits}
    {mantissa : BitVec spec.mantissaBitsWithoutImplicit}
    (number : exponent = -1#_ → mantissa = 0#_) :
    Nonnegative (UnpackedFloat.unpack spec (packComponents spec .positive exponent mantissa)) := by
  have sign : Sign.ofBitVec (Sign.toBitVec .positive) = .positive := rfl
  unfold UnpackedFloat.unpack
  simp only [unpackMantissa_packComponents, unpackExponent_packComponents,
    unpackSign_packComponents, sign]
  split
  case isTrue top => simp [number top, Nonnegative]
  case isFalse =>
    split
    · split <;> trivial
    · trivial

/-- Packing a number that is at least zero gives one again, if only an infinite one. -/
theorem nonnegative_pack {u : UnpackedFloat} (h : Nonnegative u) :
    Nonnegative (Float.Model.pack u).unpack := by
  change Nonnegative (UnpackedFloat.unpack Format.binary64 (UnpackedFloat.pack Format.binary64 u))
  cases u with
  | notANumber => exact h.elim
  | infinity sign => rwa [UnpackedFloat.pack, unpack_packedInfinity]
  | zero sign =>
    rw [UnpackedFloat.pack, unpack_packedZero]
    trivial
  | finite sign m e hm =>
    obtain rfl : sign = .positive := h
    unfold UnpackedFloat.pack
    extract_lets length biased
    split
    case isTrue =>
      rw [unpack_packedInfinity]
      rfl
    case isFalse small =>
      have notTop : BitVec.ofNat Format.binary64.exponentBits biased ≠ -1#_ := by
        intro top
        have value := congrArg BitVec.toNat top
        simp at value small
        omega
      split
      · exact nonnegative_unpack_packComponents fun top => absurd top notTop
      · exact nonnegative_unpack_packComponents fun top => absurd top (by decide)

theorem nonnegative_roundWithAccuracy (mantissa : Nat) (exponent : Int) (accuracy : Accuracy) :
    Nonnegative (roundWithAccuracy Format.binary64 .positive mantissa exponent accuracy) := by
  unfold roundWithAccuracy
  dsimp only
  split <;> trivial

theorem nonnegative_normalize {mantissa : Int} (h : 0 ≤ mantissa) (exponent : Int) :
    Nonnegative (UnpackedFloat.normalize Format.binary64 mantissa exponent .positive) := by
  unfold UnpackedFloat.normalize
  split
  case h_1 below =>
    have negative : mantissa < 0 := Int.compare_eq_lt.mp below
    omega
  case h_2 => trivial
  case h_3 => exact nonnegative_roundWithAccuracy _ _ _

theorem nonnegative_add {u v : UnpackedFloat} (hu : Nonnegative u) (hv : Nonnegative v) :
    Nonnegative (UnpackedFloat.add Format.binary64 u v) := by
  rcases u with (_ | _) | _ | _ | ⟨_ | _, m, e, hm⟩ <;> cases hu <;>
    rcases v with (_ | _) | _ | _ | ⟨_ | _, n, f, hn⟩ <;> cases hv <;>
    try trivial
  · unfold UnpackedFloat.add
    dsimp only
    split <;> trivial
  · apply nonnegative_normalize
    exact Int.add_nonneg (Int.natCast_nonneg _) (Int.natCast_nonneg _)

theorem nonnegative_div {u : UnpackedFloat} (hu : Nonnegative u) {n : Nat} {f : Int} (hn : 0 < n) :
    Nonnegative (UnpackedFloat.div Format.binary64 u (.finite .positive n f hn)) := by
  rcases u with (_ | _) | _ | _ | ⟨_ | _, m, e, hm⟩ <;> cases hu
  · trivial
  · trivial
  · exact nonnegative_roundWithAccuracy _ _ _

/-- A magnitude with a smaller exponent has the smaller value: it has no more digits, and the other
one has all that the format allows. -/
theorem scaled_le_of_lt {m n : Nat} {e f k : Int} (short : n < 2 ^ 53) (long : 2 ^ 52 ≤ m)
    (lower : f < e) (hk : k ≤ f) : n <<< (f - k).toNat ≤ m <<< (e - k).toNat := by
  obtain ⟨d, hd⟩ : ∃ d : Nat, (e - k).toNat = (d + 1) + (f - k).toNat :=
    ⟨(e - f).toNat - 1, by omega⟩
  have grown : n ≤ m * 2 ^ (d + 1) :=
    calc
      n ≤ 2 ^ 52 * 2 ^ 1 := by omega
      _ ≤ m * 2 ^ (d + 1) := Nat.mul_le_mul long (Nat.pow_le_pow_right (by omega) (by omega))
  rw [hd, Nat.shiftLeft_eq, Nat.shiftLeft_eq, Nat.pow_add, ← Nat.mul_assoc]
  exact Nat.mul_le_mul_right _ grown

/-- Of two canonical magnitudes the one that comes first, by exponent and then by mantissa, has the
smaller value. -/
theorem scaled_le {m n : Nat} {e f k : Int} (short : n < 2 ^ 53) (least : -1074 ≤ f)
    (long : -1074 < e → 2 ^ 52 ≤ m) (hk : k ≤ f) (h : f < e ∨ f = e ∧ n ≤ m) :
    ((n <<< (f - k).toNat : Nat) : Int) ≤ (m <<< (e - k).toNat : Nat) := by
  apply Int.ofNat_le.mpr
  rcases h with lower | ⟨rfl, smaller⟩
  · exact scaled_le_of_lt short (long (by omega)) lower hk
  · rw [Nat.shiftLeft_eq, Nat.shiftLeft_eq]
    exact Nat.mul_le_mul_right _ smaller

theorem nonnegative_sub {u v : UnpackedFloat} (hu : Canonical u) (hv : Canonical v)
    (finiteU : u.isFinite = true) (finiteV : v.isFinite = true)
    (h : ∃ a b, unpackedPlace v = some a ∧ unpackedPlace u = some b ∧ a ≤ b) :
    Nonnegative (UnpackedFloat.sub Format.binary64 u v) := by
  obtain ⟨a, b, ha, hb, hab⟩ := h
  rcases u with _ | _ | s | ⟨s, m, e, hm⟩ <;> cases finiteU <;>
    rcases v with _ | _ | t | ⟨t, n, f, hn⟩ <;> cases finiteV
  · cases s <;> cases t <;> trivial
  · cases t <;> cases ha <;> cases hb
    · trivial
    · simp [Prod.Lex.toLex_le_toLex] at hab
  · cases s <;> cases ha <;> cases hb
    · simp [Prod.Lex.toLex_le_toLex] at hab
    · trivial
  · obtain ⟨shortU, leastU, longU⟩ := hu
    obtain ⟨shortV, leastV, longV⟩ := hv
    apply nonnegative_normalize
    -- what is left compares the two mantissas at the smaller exponent
    cases s <;> cases t <;> cases ha <;> cases hb <;>
      simp only [Prod.Lex.toLex_le_toLex, Sign.apply] at hab ⊢
    · have smaller := scaled_le shortU leastU longV (Int.min_le_left e f) (by omega)
      omega
    · simp at hab
    · rw [Int.sub_neg]
      exact Int.add_nonneg (Int.natCast_nonneg _) (Int.natCast_nonneg _)
    · have smaller := scaled_le shortV leastV longU (Int.min_le_right e f) (by omega)
      omega

theorem place_zero : place (Scalar.zero : Float) = some (toLex (0, toLex (0, 0))) := by
  decide +kernel

theorem zero_le_iff (x : Float) : Scalar.zero ≤ x ↔ Nonnegative x.toModel.unpack := by
  rw [le_iff_place, place_zero, place]
  rcases x.toModel.unpack with (_ | _) | _ | _ | ⟨_ | _, m, e, hm⟩ <;>
    simp [unpackedPlace, Nonnegative, Prod.Lex.toLex_le_toLex]

theorem isFinite_iff (x : Float) :
    Scalar.isFinite x = true ↔ x.toModel.unpack.isFinite = true := by
  rw [Scalar.isFinite, Bool.and_eq_true, decide_eq_true_iff, decide_eq_true_iff, lt_iff_place,
    lt_iff_place, place_infinity, place_neg_infinity, place]
  rcases x.toModel.unpack with (_ | _) | _ | _ | ⟨_ | _, m, e, hm⟩ <;>
    simp [unpackedPlace, UnpackedFloat.isFinite, Prod.Lex.toLex_lt_toLex]

theorem positive_finite {x : Float} (finite : x.toModel.unpack.isFinite = true)
    (positive : Scalar.zero < x) :
    ∃ n f, ∃ hn : 0 < n, x.toModel.unpack = .finite .positive n f hn := by
  obtain ⟨a, b, ha, hb, hab⟩ := (lt_iff_place _ _).mp positive
  rw [place_zero] at ha
  rw [place] at hb
  rcases hx : x.toModel.unpack with _ | _ | _ | ⟨_ | _, n, f, hn⟩ <;>
    rw [hx] at finite hb <;> cases finite <;> cases ha <;> cases hb
  · simp at hab
  · simp [Prod.Lex.toLex_lt_toLex] at hab
  · exact ⟨n, f, hn, rfl⟩

theorem isFinite_unpack_pack {u : UnpackedFloat}
    (h : (Float.Model.pack u).unpack.isFinite = true) : u.isFinite = true := by
  cases u with
  | notANumber => exact absurd h (by decide)
  | infinity sign =>
    change (UnpackedFloat.unpack _ (packedInfinity _ sign)).isFinite = true at h
    rw [unpack_packedInfinity] at h
    exact h
  | zero sign => rfl
  | finite sign m e hm => rfl

theorem isFinite_of_sub {u v : UnpackedFloat}
    (h : (UnpackedFloat.sub Format.binary64 u v).isFinite = true) :
    u.isFinite = true ∧ v.isFinite = true := by
  rcases u with (_ | _) | _ | _ | _ <;> rcases v with (_ | _) | _ | _ | _ <;>
    first | exact ⟨rfl, rfl⟩ | cases h

instance : SignedScalar Float where
  zero_le_zero := (le_iff_place _ _).mpr ⟨_, _, place_zero, place_zero, le_rfl⟩
  finite_of_sub := by
    intro a b h
    rw [isFinite_iff] at h ⊢
    rw [isFinite_iff]
    exact isFinite_of_sub (isFinite_unpack_pack h)
  sub_nonneg := by
    intro a b ha hb h
    rw [isFinite_iff] at ha hb
    rw [zero_le_iff]
    exact nonnegative_pack (nonnegative_sub (canonical_unpack _) (canonical_unpack _) ha hb
      ((le_iff_place b a).mp h))
  add_nonneg := by
    intro a b ha hb
    rw [zero_le_iff] at ha hb ⊢
    exact nonnegative_pack (nonnegative_add ha hb)
  div_nonneg := by
    intro a b ha finite positive
    rw [isFinite_iff] at finite
    rw [zero_le_iff] at ha ⊢
    obtain ⟨n, f, hn, hb⟩ := positive_finite finite positive
    apply nonnegative_pack
    rw [hb]
    exact nonnegative_div ha hn

end Binary

end BoxSearch
