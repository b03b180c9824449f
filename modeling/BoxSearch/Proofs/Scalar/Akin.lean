import BoxSearch.Proofs.Scalar.Unpack

/-!
Numbers that differ at most in the sign of a zero.

Moving a number into an interval may replace a zero by the zero of other sign at the border. Such
numbers are akin: they compare alike, and the results of arithmetic on them are akin again. Only a
division tells the two zeros apart, and powers might do so, too. Divisors and bases are sums with a
number that is no negative zero, or they are positive, and then akin numbers are equal.

A kinship is a relation between numbers at least as strict as that one which arithmetic respects.
There are equality and akinness itself.
-/

namespace BoxSearch

open Float.Model Float.Model.UnpackedFloat

/-- The numbers are the same, or equal. Equal numbers are the same unless they are zeros; what is
not a number equals nothing. -/
def Akin (a b : Float) : Prop :=
  a = b ∨ (a == b) = true

namespace Akin

theorem refl (a : Float) : Akin a a :=
  .inl rfl

theorem trans {a b c : Float} (h : Akin a b) (h' : Akin b c) : Akin a c := by
  rcases h with rfl | equal
  · exact h'
  · rcases h' with rfl | equal'
    · exact .inr equal
    · exact .inr (Scalar.beq_trans equal equal')

end Akin

/-- A kinship is respected by arithmetic, and numbers that stand in it are akin. -/
class Kinship (R : Float → Float → Prop) : Prop where
  refl (a : Float) : R a a
  trans {a b c : Float} : R a b → R b c → R a c
  akin {a b : Float} : R a b → Akin a b
  add {a a' b b' : Float} : R a a' → R b b' → R (a + b) (a' + b')
  sub {a a' b b' : Float} : R a a' → R b b' → R (a - b) (a' - b')
  mul {a a' b b' : Float} : R a a' → R b b' → R (a * b) (a' * b')
  div {a a' : Float} (b : Float) : R a a' → R (a / b) (a' / b)

instance : Kinship Eq where
  refl _ := rfl
  trans := Eq.trans
  akin := .inl
  add := by
    rintro a _ b _ rfl rfl
    rfl
  sub := by
    rintro a _ b _ rfl rfl
    rfl
  mul := by
    rintro a _ b _ rfl rfl
    rfl
  div := by
    rintro a _ b rfl
    rfl

namespace Binary

/-- `Akin` for unpacked numbers. -/
def UnpackedAkin (u v : UnpackedFloat) : Prop :=
  u = v ∨ ∃ s t, u = .zero s ∧ v = .zero t

theorem unpackedAkin_of_place {u v : UnpackedFloat} {p : ℤ ×ₗ ℤ ×ₗ ℤ}
    (hu : unpackedPlace u = some p) (hv : unpackedPlace v = some p) : UnpackedAkin u v := by
  rcases u with (_ | _) | _ | s | ⟨_ | _, m, e, hm⟩ <;> cases hu <;>
    rcases v with (_ | _) | _ | t | ⟨_ | _, n, f, hn⟩ <;> simp [unpackedPlace] at hv
  · exact .inl rfl
  · exact .inl rfl
  · exact .inr ⟨s, t, rfl, rfl⟩
  · obtain ⟨rfl, rfl⟩ : f = e ∧ n = m := by simpa using hv
    exact .inl rfl
  · obtain ⟨rfl, rfl⟩ : f = e ∧ n = m := by simpa using hv
    exact .inl rfl

theorem unpackedAkin_of_akin {a b : Float} (h : Akin a b) :
    UnpackedAkin a.toModel.unpack b.toModel.unpack := by
  rcases h with rfl | equal
  · exact .inl rfl
  · obtain ⟨p, hp, hp'⟩ := (beq_iff_place a b).mp equal
    exact unpackedAkin_of_place hp hp'

/-- Packing keeps numbers akin. -/
theorem akin_pack {u v : UnpackedFloat} (h : UnpackedAkin u v) :
    Akin (.ofModel (pack u)) (.ofModel (pack v)) := by
  rcases h with rfl | ⟨s, t, rfl, rfl⟩
  · exact .inl rfl
  · right
    rw [beq_iff_place]
    exact ⟨_, congrArg unpackedPlace (unpack_packedZero s),
      congrArg unpackedPlace (unpack_packedZero t)⟩

theorem UnpackedAkin.trans {u v w : UnpackedFloat} (h : UnpackedAkin u v) (h' : UnpackedAkin v w) :
    UnpackedAkin u w := by
  rcases h with rfl | ⟨s, t, rfl, rfl⟩
  · exact h'
  · rcases h' with rfl | ⟨s', t', -, rfl⟩
    · exact .inr ⟨s, t, rfl, rfl⟩
    · exact .inr ⟨s, t', rfl, rfl⟩

/-- An operation respects akin operands if the sign of a zero makes little difference on either
side. -/
theorem UnpackedAkin.map₂ {op : UnpackedFloat → UnpackedFloat → UnpackedFloat}
    (left : ∀ s t v, UnpackedAkin (op (.zero s) v) (op (.zero t) v))
    (right : ∀ s t u, UnpackedAkin (op u (.zero s)) (op u (.zero t)))
    {u u' v v' : UnpackedFloat} (hu : UnpackedAkin u u') (hv : UnpackedAkin v v') :
    UnpackedAkin (op u v) (op u' v') := by
  have first : UnpackedAkin (op u v) (op u' v) := by
    rcases hu with rfl | ⟨s, t, rfl, rfl⟩
    · exact .inl rfl
    · exact left s t v
  have second : UnpackedAkin (op u' v) (op u' v') := by
    rcases hv with rfl | ⟨s, t, rfl, rfl⟩
    · exact .inl rfl
    · exact right s t u'
  exact first.trans second

theorem UnpackedAkin.add {u u' v v' : UnpackedFloat} (hu : UnpackedAkin u u')
    (hv : UnpackedAkin v v') :
    UnpackedAkin (UnpackedFloat.add Format.binary64 u v)
      (UnpackedFloat.add Format.binary64 u' v') := by
  refine map₂ (fun s t v => ?_) (fun s t u => ?_) hu hv
  · rcases v with _ | _ | r | _
    case zero => cases s <;> cases t <;> cases r <;> exact .inr ⟨_, _, rfl, rfl⟩
    all_goals exact .inl rfl
  · rcases u with _ | _ | r | _
    case zero => cases s <;> cases t <;> cases r <;> exact .inr ⟨_, _, rfl, rfl⟩
    all_goals exact .inl rfl

theorem UnpackedAkin.sub {u u' v v' : UnpackedFloat} (hu : UnpackedAkin u u')
    (hv : UnpackedAkin v v') :
    UnpackedAkin (UnpackedFloat.sub Format.binary64 u v)
      (UnpackedFloat.sub Format.binary64 u' v') := by
  refine map₂ (fun s t v => ?_) (fun s t u => ?_) hu hv
  · rcases v with _ | _ | r | _
    case zero => cases s <;> cases t <;> cases r <;> exact .inr ⟨_, _, rfl, rfl⟩
    all_goals exact .inl rfl
  · rcases u with _ | _ | r | _
    case zero => cases s <;> cases t <;> cases r <;> exact .inr ⟨_, _, rfl, rfl⟩
    all_goals exact .inl rfl

theorem UnpackedAkin.mul {u u' v v' : UnpackedFloat} (hu : UnpackedAkin u u')
    (hv : UnpackedAkin v v') :
    UnpackedAkin (UnpackedFloat.mul Format.binary64 u v)
      (UnpackedFloat.mul Format.binary64 u' v') := by
  refine map₂ (fun s t v => ?_) (fun s t u => ?_) hu hv
  · rcases v with _ | _ | _ | _
    case infinity | notANumber => exact .inl rfl
    all_goals exact .inr ⟨_, _, rfl, rfl⟩
  · rcases u with _ | _ | _ | _
    case infinity | notANumber => exact .inl rfl
    all_goals exact .inr ⟨_, _, rfl, rfl⟩

theorem UnpackedAkin.div {u u' : UnpackedFloat} (v : UnpackedFloat) (hu : UnpackedAkin u u') :
    UnpackedAkin (UnpackedFloat.div Format.binary64 u v)
      (UnpackedFloat.div Format.binary64 u' v) := by
  rcases hu with rfl | ⟨s, t, rfl, rfl⟩
  · exact .inl rfl
  · rcases v with _ | _ | _ | _
    case notANumber | zero => exact .inl rfl
    all_goals exact .inr ⟨_, _, rfl, rfl⟩

instance : Kinship Akin where
  refl := .refl
  trans := .trans
  akin := id
  add ha hb := akin_pack ((unpackedAkin_of_akin ha).add (unpackedAkin_of_akin hb))
  sub ha hb := akin_pack ((unpackedAkin_of_akin ha).sub (unpackedAkin_of_akin hb))
  mul ha hb := akin_pack ((unpackedAkin_of_akin ha).mul (unpackedAkin_of_akin hb))
  div b ha := akin_pack ((unpackedAkin_of_akin ha).div b.toModel.unpack)

/-- A number that is no negative zero. -/
def Firm (c : Float) : Prop :=
  (c.toModel.unpack == .zero .negative) = false

instance (c : Float) : Decidable (Firm c) :=
  inferInstanceAs (Decidable (_ = _))

theorem firm_zero : Firm Scalar.zero := by
  decide +kernel

theorem firm_one : Firm Scalar.one := by
  decide +kernel

/-- Sums with a number that is no negative zero do not show the sign of a zero. -/
theorem Firm.add {c : Float} (firm : Firm c) {a b : Float} (h : Akin a b) : c + a = c + b := by
  have same : UnpackedFloat.add Format.binary64 c.toModel.unpack a.toModel.unpack =
      UnpackedFloat.add Format.binary64 c.toModel.unpack b.toModel.unpack := by
    rcases unpackedAkin_of_akin h with same | ⟨s, t, hs, ht⟩
    · rw [same]
    · rw [hs, ht]
      rcases hc : c.toModel.unpack with _ | _ | (_ | _) | _
      case zero.negative =>
        rw [Firm, hc] at firm
        cases firm
      case zero.positive => cases s <;> cases t <;> rfl
      all_goals rfl
  exact congrArg (fun u => Float.ofModel (pack u)) same

/-- Nor do differences from such a number. -/
theorem Firm.sub {c : Float} (firm : Firm c) {a b : Float} (h : Akin a b) : c - a = c - b := by
  have same : UnpackedFloat.sub Format.binary64 c.toModel.unpack a.toModel.unpack =
      UnpackedFloat.sub Format.binary64 c.toModel.unpack b.toModel.unpack := by
    rcases unpackedAkin_of_akin h with same | ⟨s, t, hs, ht⟩
    · rw [same]
    · rw [hs, ht]
      rcases hc : c.toModel.unpack with _ | _ | (_ | _) | _
      case zero.negative =>
        rw [Firm, hc] at firm
        cases firm
      case zero.positive => cases s <;> cases t <;> rfl
      all_goals rfl
  exact congrArg (fun u => Float.ofModel (pack u)) same

end Binary

namespace Akin

open Binary

variable {a a' b b' c : Float}

theorem place_eq (h : Akin a a') : place a = place a' := by
  rcases h with rfl | equal
  · rfl
  · obtain ⟨p, hp, hp'⟩ := (beq_iff_place _ _).mp equal
    rw [hp, hp']

theorem lt_iff (ha : Akin a a') (hb : Akin b b') : a < b ↔ a' < b' := by
  rw [lt_iff_place, lt_iff_place, ha.place_eq, hb.place_eq]

theorem le_iff (ha : Akin a a') (hb : Akin b b') : a ≤ b ↔ a' ≤ b' := by
  rw [le_iff_place, le_iff_place, ha.place_eq, hb.place_eq]

theorem beq_eq (ha : Akin a a') (hb : Akin b b') : (a == b) = (a' == b') := by
  rw [Bool.eq_iff_iff, beq_iff_place, beq_iff_place, ha.place_eq, hb.place_eq]

theorem isNaN_eq (h : Akin a a') : Scalar.isNaN a = Scalar.isNaN a' := by
  rw [Scalar.isNaN, Scalar.isNaN, h.beq_eq h]

theorem isFinite_eq (h : Akin a a') : Scalar.isFinite a = Scalar.isFinite a' := by
  simp only [Scalar.isFinite, lt_iff (refl _) h, lt_iff h (refl _)]

/-- Above zero, akin numbers are the same. -/
theorem eq_of_pos (h : Akin a a') (positive : Scalar.zero < a) : a = a' := by
  rcases unpackedAkin_of_akin h with same | ⟨s, t, zero, -⟩
  · cases a
    cases a'
    exact congrArg Float.ofModel (unpack_injective same)
  · obtain ⟨p, q, hp, hq, below⟩ := (lt_iff_place _ _).mp positive
    rw [place_zero] at hp
    rw [place, zero] at hq
    cases hp
    cases hq
    exact below.false.elim

theorem of_le_of_le (h : a ≤ b) (h' : b ≤ a) : Akin a b :=
  .inr (OrderedScalar.beq_iff.mpr ⟨h, h'⟩)

end Akin

theorem akin_larger {a low : Float} (above : low ≤ a) : Akin a (Scalar.larger a low) := by
  rw [Scalar.larger]
  split
  case isTrue => exact .refl a
  case isFalse kept =>
    simp only [Bool.or_eq_true, decide_eq_true_eq, not_or] at kept
    have numbers := OrderedScalar.le_self_of_le above
    exact .of_le_of_le (Scalar.le_of_not_lt numbers.1 numbers.2 kept.2) above

theorem akin_smaller {a high : Float} (below : a ≤ high) : Akin a (Scalar.smaller a high) := by
  rw [Scalar.smaller]
  split
  case isTrue => exact .refl a
  case isFalse kept =>
    simp only [Bool.or_eq_true, decide_eq_true_eq, not_or] at kept
    have numbers := OrderedScalar.le_self_of_le below
    exact .of_le_of_le below (Scalar.le_of_not_lt numbers.1 numbers.2 kept.2)

/-- A number of an interval stays where it is if it is moved into the interval, but a zero may
change its sign. -/
theorem akin_clamp {a low high : Float} (above : low ≤ a) (below : a ≤ high) :
    Akin a (Scalar.clamp a low high) := by
  have raised := akin_larger above
  exact raised.trans (akin_smaller ((raised.le_iff (.refl high)).mp below))

end BoxSearch
