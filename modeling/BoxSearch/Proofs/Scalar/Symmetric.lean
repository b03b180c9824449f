import BoxSearch.Proofs.Scalar.Share

/-!
Intervals around zero.

A limit on the size of a number is an interval from its negative to itself. For double precision
numbers it is not empty: changing the sign of a number is exact, and a product of numbers that are at
least zero is at least zero, unless one of them is infinite and the other one is zero.
-/

namespace BoxSearch.Binary

open Float.Model Float.Model.UnpackedFloat

variable {x y : Float}

theorem nonnegative_mul {n : ℕ} {f : ℤ} {hn : 0 < n} {v : UnpackedFloat} (hv : Nonnegative v) :
    Nonnegative (UnpackedFloat.mul Format.binary64 (.finite .positive n f hn) v) := by
  rcases v with (_ | _) | _ | _ | ⟨_ | _, m, e, hm⟩ <;> cases hv
  · rfl
  · trivial
  · exact nonnegative_roundWithAccuracy _ _ _

theorem mul_nonneg (positive : Scalar.zero < x) (finite : Scalar.isFinite x = true)
    (nonneg : Scalar.zero ≤ y) : Scalar.zero ≤ x * y := by
  rw [isFinite_iff] at finite
  rw [zero_le_iff] at nonneg ⊢
  obtain ⟨n, f, hn, unpacked⟩ := positive_finite finite positive
  apply nonnegative_pack
  rw [unpacked]
  exact nonnegative_mul nonneg

/-- A change of the sign is packed without loss. -/
theorem unpack_neg (x : Float) : (-x).toModel.unpack = x.toModel.unpack.neg := by
  change (Float.Model.pack x.toModel.unpack.neg).unpack = _
  have canonical := canonical_unpack x.toModel
  rcases hx : x.toModel.unpack with s | _ | s | ⟨s, m, e, hm⟩
  · exact unpack_packedInfinity (-s)
  · rfl
  · exact unpack_packedZero (-s)
  · rw [hx] at canonical
    exact unpack_pack_fits hm canonical (exponent_unpack_le hx)

theorem neg_le_self (nonneg : Scalar.zero ≤ x) : -x ≤ x := by
  rw [zero_le_iff] at nonneg
  rw [le_iff_place, place, place, unpack_neg]
  generalize x.toModel.unpack = u at nonneg ⊢
  rcases u with (_ | _) | _ | _ | ⟨_ | _, m, e, hm⟩ <;> cases nonneg
  · exact ⟨_, _, rfl, rfl, by simp [Prod.Lex.toLex_le_toLex]⟩
  · exact ⟨_, _, rfl, rfl, le_rfl⟩
  · exact ⟨_, _, rfl, rfl, by simp [Prod.Lex.toLex_le_toLex]⟩

end BoxSearch.Binary
