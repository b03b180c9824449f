import BoxSearch.Proofs.Scalar.Order
import Mathlib.Data.Prod.Lex

/-!
Double precision numbers obey the laws of comparison.

Every number has a place in a linear order: first its sign and kind, then exponent and mantissa.
What is not a number has no place, and the two zeros share one. Comparing two numbers is comparing
their places.
-/

namespace BoxSearch.Binary

open Float.Model Float.Model.UnpackedFloat

/-- The place of an unpacked number. Negative numbers with a larger exponent or mantissa come
earlier. -/
def unpackedPlace : UnpackedFloat → Option (ℤ ×ₗ ℤ ×ₗ ℤ)
  | .notANumber => none
  | .infinity .negative => some (toLex (-2, toLex (0, 0)))
  | .finite .negative mantissa exponent _ =>
    some (toLex (-1, toLex (-exponent, -(mantissa : ℤ))))
  | .zero _ => some (toLex (0, toLex (0, 0)))
  | .finite .positive mantissa exponent _ => some (toLex (1, toLex (exponent, (mantissa : ℤ))))
  | .infinity .positive => some (toLex (2, toLex (0, 0)))

/-- The place of a double precision number. -/
def place (x : Float) : Option (ℤ ×ₗ ℤ ×ₗ ℤ) :=
  unpackedPlace x.toModel.unpack

theorem compare_eq_lt_iff (x y : UnpackedFloat) :
    x.compare y = some .lt ↔
      ∃ a b, unpackedPlace x = some a ∧ unpackedPlace y = some b ∧ a < b := by
  rcases x with (_ | _) | _ | _ | ⟨_ | _, m, e, hm⟩ <;>
    rcases y with (_ | _) | _ | _ | ⟨_ | _, n, f, hn⟩ <;>
    dsimp only [UnpackedFloat.compare, unpackedPlace] <;>
    simp [Prod.Lex.toLex_lt_toLex, Ordering.then_eq_lt,
      Ordering.then_eq_gt, Ordering.swap_eq_lt, Int.compare_eq_lt, Int.compare_eq_gt,
      Nat.compare_eq_lt, Nat.compare_eq_gt]
  all_goals decide

theorem compare_eq_eq_iff (x y : UnpackedFloat) :
    x.compare y = some .eq ↔ ∃ a, unpackedPlace x = some a ∧ unpackedPlace y = some a := by
  rcases x with (_ | _) | _ | _ | ⟨_ | _, m, e, hm⟩ <;>
    rcases y with (_ | _) | _ | _ | ⟨_ | _, n, f, hn⟩ <;>
    dsimp only [UnpackedFloat.compare, unpackedPlace] <;>
    simp
  all_goals first | decide | omega

theorem lt_iff_place (x y : Float) :
    x < y ↔ ∃ a b, place x = some a ∧ place y = some b ∧ a < b := by
  refine Iff.trans ?_ (compare_eq_lt_iff x.toModel.unpack y.toModel.unpack)
  change decide (UnpackedFloat.lt _ _ = true) = true ↔ _
  simp [UnpackedFloat.lt]

theorem beq_iff_place (x y : Float) :
    (x == y) = true ↔ ∃ a, place x = some a ∧ place y = some a := by
  refine Iff.trans ?_ (compare_eq_eq_iff x.toModel.unpack y.toModel.unpack)
  change (UnpackedFloat.compare _ _ == some .eq) = true ↔ _
  exact beq_iff_eq

theorem le_iff_compare (x y : Float) :
    x ≤ y ↔ x.toModel.unpack.compare y.toModel.unpack = some .lt ∨
      x.toModel.unpack.compare y.toModel.unpack = some .eq := by
  change decide (UnpackedFloat.le _ _ = true) = true ↔ _
  rw [decide_eq_true_iff, UnpackedFloat.le]
  cases UnpackedFloat.compare x.toModel.unpack y.toModel.unpack with
  | none => simp
  | some o => cases o <;> simp

theorem le_iff_place (x y : Float) :
    x ≤ y ↔ ∃ a b, place x = some a ∧ place y = some b ∧ a ≤ b := by
  rw [le_iff_compare, compare_eq_lt_iff, compare_eq_eq_iff]
  constructor
  · rintro (⟨a, b, ha, hb, h⟩ | ⟨a, ha, hb⟩)
    · exact ⟨a, b, ha, hb, h.le⟩
    · exact ⟨a, a, ha, hb, le_rfl⟩
  · rintro ⟨a, b, ha, hb, h⟩
    rcases h.lt_or_eq with hlt | rfl
    · exact .inl ⟨a, b, ha, hb, hlt⟩
    · exact .inr ⟨a, ha, hb⟩

theorem place_infinity : place (Scalar.infinity : Float) = some (toLex (2, toLex (0, 0))) := by
  decide +kernel

theorem place_neg_infinity :
    place (-(Scalar.infinity : Float)) = some (toLex (-2, toLex (0, 0))) := by
  decide +kernel

/-- No place lies outside those of the two infinities. -/
theorem place_bounds {x : Float} {a : ℤ ×ₗ ℤ ×ₗ ℤ} (h : place x = some a) :
    toLex (-2, toLex (0, 0)) ≤ a ∧ a ≤ toLex (2, toLex (0, 0)) := by
  unfold place at h
  rcases hx : x.toModel.unpack with (_ | _) | _ | _ | ⟨_ | _, m, e, hm⟩ <;>
    rw [hx] at h <;> cases h <;> simp [Prod.Lex.toLex_le_toLex]

instance : OrderedScalar Float where
  le_trans := by
    intro x y z hxy hyz
    obtain ⟨a, b, ha, hb, hab⟩ := (le_iff_place x y).mp hxy
    obtain ⟨b', c, hb', hc, hbc⟩ := (le_iff_place y z).mp hyz
    obtain rfl : b = b' := Option.some.inj (hb.symm.trans hb')
    exact (le_iff_place x z).mpr ⟨a, c, ha, hc, hab.trans hbc⟩
  le_self_of_le := by
    intro x y hxy
    obtain ⟨a, b, ha, hb, _⟩ := (le_iff_place x y).mp hxy
    exact ⟨(le_iff_place x x).mpr ⟨a, a, ha, ha, le_rfl⟩,
      (le_iff_place y y).mpr ⟨b, b, hb, hb, le_rfl⟩⟩
  le_total := by
    intro x y hx hy
    obtain ⟨a, _, ha, _, _⟩ := (le_iff_place x x).mp hx
    obtain ⟨b, _, hb, _, _⟩ := (le_iff_place y y).mp hy
    rcases le_total a b with hab | hba
    · exact .inl ((le_iff_place x y).mpr ⟨a, b, ha, hb, hab⟩)
    · exact .inr ((le_iff_place y x).mpr ⟨b, a, hb, ha, hba⟩)
  lt_iff := by
    intro x y
    rw [lt_iff_place, le_iff_place, le_iff_place]
    constructor
    · rintro ⟨a, b, ha, hb, hab⟩
      refine ⟨⟨a, b, ha, hb, hab.le⟩, ?_⟩
      rintro ⟨b', a', hb', ha', hba⟩
      obtain rfl : a = a' := Option.some.inj (ha.symm.trans ha')
      obtain rfl : b = b' := Option.some.inj (hb.symm.trans hb')
      exact absurd hba (not_le_of_gt hab)
    · rintro ⟨⟨a, b, ha, hb, _⟩, h⟩
      exact ⟨a, b, ha, hb, lt_of_not_ge fun hba => h ⟨b, a, hb, ha, hba⟩⟩
  beq_iff := by
    intro x y
    rw [beq_iff_place, le_iff_place, le_iff_place]
    constructor
    · rintro ⟨a, ha, hb⟩
      exact ⟨⟨a, a, ha, hb, le_rfl⟩, ⟨a, a, hb, ha, le_rfl⟩⟩
    · rintro ⟨⟨a, b, ha, hb, hab⟩, ⟨b', a', hb', ha', hba⟩⟩
      obtain rfl : a = a' := Option.some.inj (ha.symm.trans ha')
      obtain rfl : b = b' := Option.some.inj (hb.symm.trans hb')
      obtain rfl : a = b := le_antisymm hab hba
      exact ⟨a, ha, hb⟩
  infinity_le_self := (le_iff_place _ _).mpr ⟨_, _, place_infinity, place_infinity, le_rfl⟩
  le_infinity := by
    intro x hx
    obtain ⟨a, _, ha, _, _⟩ := (le_iff_place x x).mp hx
    exact (le_iff_place _ _).mpr ⟨a, _, ha, place_infinity, (place_bounds ha).2⟩
  neg_infinity_le := by
    intro x hx
    obtain ⟨a, _, ha, _, _⟩ := (le_iff_place x x).mp hx
    exact (le_iff_place _ _).mpr ⟨_, a, place_neg_infinity, ha, (place_bounds ha).1⟩

end BoxSearch.Binary
