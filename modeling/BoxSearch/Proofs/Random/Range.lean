import BoxSearch.Proofs.Draw
import BoxSearch.Proofs.Scalar.Share

/-!
Where drawn numbers lie.

A unit number is a multiple of `2 ^ -53`, from zero on and below one, and an index is below its
bound. Both hold whatever the state of the stream is, also where a rejected draw would be repeated
too often.
-/

namespace BoxSearch

open Binary

namespace Binary

/-- A word is turned into the number itself, rounded. -/
theorem nearest_toFloat (w : UInt64) : Nearest w.toNat w.toFloat := by
  obtain ⟨r, rounded, stands⟩ := normalize_stands (z := (w.toNat : ℤ)) (e := 0)
    (Int.natCast_nonneg _)
  rw [zpow_zero, mul_one, Int.cast_natCast] at rounded
  exact stands.nearest rounded rfl

theorem zero_le_toFloat (w : UInt64) : Scalar.zero ≤ w.toFloat := by
  rw [zero_le_iff]
  exact nonnegative_pack (nonnegative_normalize (Int.natCast_nonneg _) 0)

/-- The longest mantissa, scaled, is a number of the format. -/
theorem rounded_full {e : ℤ} (least : -1074 ≤ e) :
    Rounded ((2 ^ 53 - 1 : ℕ) * 2 ^ e) ((2 ^ 53 - 1 : ℕ) * 2 ^ e) :=
  rounded_self (by decide) least (fun _ => by decide) (by decide)

theorem value_scale : value 9007199254740992.0 = 2 ^ 53 := by
  decide +kernel

/-- A word of 53 bits, scaled down by as many, is no more than the largest number of the format
below one. -/
theorem toFloat_div_scale_le {w : UInt64} (short : w.toNat < 2 ^ 53) :
    Scalar.isFinite (w.toFloat / 9007199254740992.0) = true ∧
      value (w.toFloat / 9007199254740992.0) ≤ (2 ^ 53 - 1 : ℕ) * 2 ^ (-53 : ℤ) := by
  have scale : Scalar.isFinite (9007199254740992.0 : Float) = true := by decide +kernel
  have positive : 0 < value 9007199254740992.0 := by
    rw [value_scale]
    norm_num
  have nonneg : 0 ≤ value w.toFloat := value_nonneg (zero_le_toFloat w)
  have whole : (w.toNat : ℚ) ≤ (2 ^ 53 - 1 : ℕ) * 2 ^ (0 : ℤ) := by
    rw [zpow_zero, mul_one]
    exact_mod_cast Nat.le_sub_one_of_lt short
  obtain ⟨r, rounded, finite, same⟩ := nearest_toFloat w
  have bound := rounded.mono (rounded_full (by decide)) (Nat.cast_nonneg _) whole
  have finite := finite.mpr (bound.trans_lt (value_lt_limit (by decide) (by decide)))
  rw [← same finite] at bound
  obtain ⟨q, rounded, finite, same⟩ := nearest_div finite scale nonneg positive
  have part : value w.toFloat / value 9007199254740992.0 ≤ (2 ^ 53 - 1 : ℕ) * 2 ^ (-53 : ℤ) := by
    rw [div_le_iff₀ positive, value_scale]
    refine bound.trans (le_of_eq ?_)
    norm_num
  have below := rounded.mono (rounded_full (by decide)) (div_nonneg nonneg positive.le) part
  have finite := finite.mpr (below.trans_lt (value_lt_limit (by decide) (by decide)))
  rw [← same finite] at below
  exact ⟨finite, below⟩

theorem lt_one_of_value_lt {x : Float} (finite : Scalar.isFinite x = true) (below : value x < 1) :
    x < 1.0 := by
  have one : Scalar.isFinite (1.0 : Float) = true := by decide +kernel
  refine (Scalar.lt_or_le (Scalar.le_self_of_isFinite finite)
    (Scalar.le_self_of_isFinite one)).resolve_right fun above => ?_
  have ordered := value_le_value one finite above
  rw [value_one] at ordered
  exact absurd below ordered.not_gt

end Binary

namespace Random

theorem Generator.zero_le_unit (g : Generator) : 0.0 ≤ g.unit.1 :=
  SignedScalar.div_nonneg (zero_le_toFloat _) (by decide +kernel) (by decide +kernel)

/-- A unit number stands for a rational below one. -/
theorem Generator.value_unit_lt_one (g : Generator) :
    Scalar.isFinite g.unit.1 = true ∧ value g.unit.1 < 1 := by
  have short : (g.word.1 >>> 11).toNat < 2 ^ 53 := by
    rw [UInt64.toNat_shiftRight, Nat.shiftRight_eq_div_pow]
    exact Nat.div_lt_of_lt_mul g.word.1.toNat_lt
  obtain ⟨finite, below⟩ := toFloat_div_scale_le short
  refine ⟨finite, below.trans_lt ?_⟩
  norm_num

theorem Generator.unit_lt_one (g : Generator) : g.unit.1 < 1.0 :=
  lt_one_of_value_lt g.value_unit_lt_one.1 g.value_unit_lt_one.2

/-- What every draw has in common is true of the draw that repetition ends with. -/
theorem drawUntil_of_forall {β : Type} {p : β → Prop} {draw : Generator → β × Generator}
    (accepts : β → Bool) (each : ∀ g, p (draw g).1) (fuel : Nat) (g : Generator) :
    p (drawUntil accepts draw fuel g).1 := by
  induction fuel generalizing g with
  | zero => exact each g
  | succ fuel ih =>
    rw [drawUntil]
    dsimp only
    split
    · exact each g
    · exact ih _

theorem scaled_lt {size n : Nat} {draw : Generator → Nat × Generator} (positive : 0 < n)
    (each : ∀ g, (draw g).1 < size) (g : Generator) : (scaled size n draw g).1 < n := by
  have large : 0 < size := (Nat.zero_le _).trans_lt (each g)
  unfold scaled
  extract_lets surplus
  have multiple (g : Generator) : (draw g).1 * n < n * size :=
    (Nat.mul_lt_mul_of_pos_right (each g) positive).trans_eq (Nat.mul_comm _ _)
  generalize drawn : drawUntil _ _ tries g = r
  have product : r.1 < n * size := by
    rw [← drawn]
    exact drawUntil_of_forall (p := (· < n * size)) _ multiple tries g
  exact (Nat.div_lt_iff_lt_mul large).mpr product

theorem upTo_le (top : Nat) (g : Generator) : (upTo top g).1 ≤ top := by
  unfold upTo
  split
  · exact Nat.zero_le _
  · split
    · exact Nat.lt_succ_iff.mp (scaled_lt (Nat.succ_pos _) (fun g => g.halfWord.1.toNat_lt) g)
    · split
      case isTrue full =>
        rw [beq_iff_eq.mp full]
        exact Nat.le_sub_one_of_lt g.halfWord.1.toNat_lt
      case isFalse =>
        exact Nat.lt_succ_iff.mp (scaled_lt (Nat.succ_pos _) (fun g => g.word.1.toNat_lt) g)

namespace Generator

/-- The state after `k` unit numbers. -/
def ahead (g : Generator) (k : Nat) : Generator :=
  (fun g => g.unit.2)^[k] g

/-- The unit numbers that a stream holds, the next one first. -/
def units (g : Generator) (k : Nat) : Float :=
  (g.ahead k).unit.1

theorem units_zero (g : Generator) : g.units 0 = g.unit.1 :=
  congrArg (fun h : Generator => h.unit.1) (Function.iterate_zero_apply _ g)

theorem ahead_succ (g : Generator) (k : Nat) : g.ahead (k + 1) = g.unit.2.ahead k :=
  Function.iterate_succ_apply _ k g

theorem units_succ (g : Generator) (k : Nat) : g.units (k + 1) = g.unit.2.units k :=
  congrArg (fun h : Generator => h.unit.1) (ahead_succ g k)

theorem units_mem (g : Generator) (k : Nat) : 0.0 ≤ g.units k ∧ g.units k < 1.0 :=
  ⟨zero_le_unit _, unit_lt_one _⟩

/-- They stand for rationals of the same interval. -/
theorem value_units_mem (g : Generator) (k : Nat) :
    Scalar.isFinite (g.units k) = true ∧ 0 ≤ value (g.units k) ∧ value (g.units k) < 1 :=
  ⟨(value_unit_lt_one _).1, value_nonneg (zero_le_unit _), (value_unit_lt_one _).2⟩

end Generator

end Random

namespace Draw

open BoxSearch.Random

variable {g g' : Generator}

theorem lt_of_index {n i : Nat} (positive : 0 < n) (h : (index n).run g = (.ok i, g')) : i < n := by
  rw [index, if_neg (by omega)] at h
  split at h
  · cases h
  · have drawn : (upTo (n - 1) g).1 = i := Except.ok.inj (congrArg Prod.fst h)
    have bound := upTo_le (n - 1) g
    omega

/-- Numbers that are drawn one after another are the numbers that the stream holds. -/
theorem times_unit (n : Nat) (g : Generator) :
    (times n unit : Draw (Array Float)).run g = (.ok (Row.tabulate n g.units), g.ahead n) := by
  unfold times
  induction n with
  | zero =>
    have none : Row.tabulate 0 g.units = #[] := by simp [Row.tabulate]
    rw [none]
    rfl
  | succ n ih =>
    have last : Row.tabulate (n + 1) g.units = (Row.tabulate n g.units).push (g.units n) := by
      simp [Row.tabulate, Array.range_succ]
    have next : g.ahead (n + 1) = (g.ahead n).unit.2 := Function.iterate_succ_apply' _ n g
    rw [List.range_succ, List.foldlM_append, run_bind, ih, last, next]
    rfl

end Draw

end BoxSearch
