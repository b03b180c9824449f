import BoxSearch.Proofs.Evaluation.Chunks
import BoxSearch.Proofs.Scalar.Quotient
import BoxSearch.Proofs.Scalar.Share

/-!
A batch is shared out evenly.

All slices of a batch are of one length but the last, which has what is left. A worker's share is
computed in double precision, which below `2 ^ 53` rows gives the exact share, rounded up. So there
are no more slices than workers.
-/

namespace BoxSearch.Slice

open Binary Float.Model Float.Model.UnpackedFloat

section Share

variable {n w : ℕ}

/-- A mantissa times a power of two as a quotient of whole numbers. -/
theorem scaled_eq_div (m : ℕ) (e : ℤ) :
    (m * 2 ^ e : ℚ) = (m * 2 ^ e.toNat : ℕ) / (2 ^ (-e).toNat : ℕ) := by
  push_cast
  rw [mul_div_assoc, ← zpow_natCast, ← zpow_natCast, ← zpow_sub₀ two_ne_zero]
  congr 2
  omega

theorem roundUp_eq (x : Float) : roundUp x = ⌈value x⌉₊ := by
  unfold roundUp value
  rcases x.toModel.unpack with _ | _ | _ | ⟨_ | _, m, e, positive⟩
  · simp [unpackedValue]
  · simp [unpackedValue]
  · simp [unpackedValue]
  · have below : -(m * 2 ^ e : ℚ) ≤ 0 := neg_nonpos.mpr (by positivity)
    exact (Nat.ceil_eq_zero.mpr below).symm
  · have unit : 0 < 2 ^ (-e).toNat := Nat.two_pow_pos _
    change _ = ⌈(m * 2 ^ e : ℚ)⌉₊
    rw [scaled_eq_div, natCeil_div _ unit, Nat.ceilDiv_eq_add_pred_div, Nat.add_sub_assoc unit]
    simp only [Nat.shiftLeft_eq, Nat.shiftRight_eq_div_pow, Nat.one_mul]

/-- A share is the quotient, rounded. -/
theorem nearest_share (some : 0 < n) (positive : 0 < w) : Nearest (n / w : ℚ) (share n w) := by
  obtain ⟨n, rfl⟩ := Nat.exists_eq_succ_of_ne_zero some.ne'
  obtain ⟨w, rfl⟩ := Nat.exists_eq_succ_of_ne_zero positive.ne'
  obtain ⟨r, rounded, stands⟩ := divCore_stands (e := 0) (f := 0) n.succ_pos w.succ_pos
  rw [zpow_zero, mul_one, mul_one] at rounded
  exact stands.nearest rounded rfl

theorem unpack_share_zero (positive : 0 < w) : (share 0 w).toModel.unpack = .zero .positive := by
  obtain ⟨w, rfl⟩ := Nat.exists_eq_succ_of_ne_zero positive.ne'
  exact unpack_packedZero .positive

theorem isFinite_share (short : n < 2 ^ 53) (positive : 0 < w) :
    Scalar.isFinite (share n w) = true := by
  rcases n.eq_zero_or_pos with rfl | some
  · rw [isFinite_iff, Nat.cast_zero, unpack_share_zero positive]
    rfl
  · obtain ⟨r, rounded, finite, -⟩ := nearest_share some positive
    have quotient : (0 : ℚ) ≤ n / w := by positivity
    have most : (n / w : ℚ) ≤ n := div_le_self (Nat.cast_nonneg n) (by exact_mod_cast positive)
    apply finite.mpr
    calc r ≤ n := rounded.mono (rounded_natCast some short) quotient most
      _ < 2 ^ 53 := by exact_mod_cast short
      _ ≤ 2 ^ 1024 := pow_le_pow_right₀ one_le_two (by decide)

theorem isInf_eq_false {x : Float} (finite : Scalar.isFinite x = true) : x.isInf = false := by
  rw [isFinite_iff] at finite
  change x.toModel.unpack.isInf = false
  rcases same : x.toModel.unpack with _ | _ | _ | _ <;> rw [same] at finite
  · cases finite
  · rfl
  · rfl
  · rfl

/-- The length of a slice if none is given: the exact share, rounded up. -/
theorem spread_eq (short : n < 2 ^ 53) (positive : 0 < w) :
    chunkLength.spread n w = max 1 (n ⌈/⌉ w) := by
  rw [chunkLength.spread, roundUp_eq]
  rcases n.eq_zero_or_pos with rfl | some
  · rw [Nat.cast_zero, value, unpack_share_zero positive, unpackedValue, Nat.ceil_zero,
      zero_ceilDiv]
  · obtain ⟨r, rounded, -, same⟩ := nearest_share some positive
    have exact := rounded.natCeil_quotient some short positive
    rw [same (isFinite_share short positive), exact, max_eq_right (exact ▸ le_max_left _ _)]

/-- The workers' shares cover all rows. -/
theorem le_mul_spread (short : n < 2 ^ 53) (positive : 0 < w) :
    n ≤ w * chunkLength.spread n w := by
  rw [← ceilDiv_le_iff_le_mul positive, spread_eq short positive]
  exact le_max_right _ _

end Share

section Tiles

variable {n size start : ℕ} {slices : List Slice}

/-- The rows of a slice. -/
def rows (s : Slice) : List ℕ :=
  List.range' s.start (s.stop - s.start)

/-- Slices of `size` rows each, except that the last one may have fewer. -/
structure Even (size : ℕ) (slices : List Slice) : Prop where
  full : ∀ s ∈ slices.dropLast, s.stop = s.start + size
  most : ∀ s ∈ slices, s.stop ≤ s.start + size

/-- The slices of a tiling have each row once, in order. -/
theorem flatMap_rows (tiles : Tiles n start slices) :
    slices.flatMap rows = List.range' start (n - start) := by
  induction tiles with
  | done => rw [Nat.sub_self]; rfl
  | @next start stop slices nonempty inside rest ih =>
    calc (⟨start, stop⟩ :: slices).flatMap rows
        = List.range' start (stop - start) ++ List.range' stop (n - stop) := by
          rw [List.flatMap_cons, ih, rows]
      _ = List.range' start (stop - start) ++
            List.range' (start + (stop - start)) (n - stop) := by
          rw [Nat.add_sub_cancel' nonempty.le]
      _ = List.range' start (stop - start + (n - stop)) := List.range'_append_1
      _ = List.range' start (n - start) := by
          congr 1
          omega

theorem even_nil (size : ℕ) : Even size [] :=
  ⟨by simp, by simp⟩

theorem even_cons {s : Slice} (most : s.stop ≤ s.start + size)
    (full : slices ≠ [] → s.stop = s.start + size) (rest : Even size slices) :
    Even size (s :: slices) := by
  refine ⟨?_, List.forall_mem_cons.mpr ⟨most, rest.most⟩⟩
  rcases slices with _ | ⟨t, slices⟩
  · simp
  · rw [List.dropLast_cons_cons]
    exact List.forall_mem_cons.mpr ⟨full (List.cons_ne_nil t slices), rest.full⟩

/-- Slices of a length are as long as that, up to the one which reaches the end. -/
theorem tile_even (n size fuel start : ℕ) : Even size (tile n size fuel start) := by
  induction fuel generalizing start with
  | zero => exact even_nil size
  | succ fuel ih =>
    rw [tile]
    split
    case isFalse => exact even_nil size
    case isTrue =>
      refine even_cons (Nat.min_le_left _ _) (fun more => ?_) (ih _)
      have inside : start + size < n := by
        by_contra reached
        exact more (tile_eq_nil fuel (Nat.not_lt.mp reached))
      exact Nat.min_eq_left inside.le

/-- An even tiling has no more slices than it takes. -/
theorem length_mul_lt (tiles : Tiles n start slices) (even : Even size slices)
    (positive : 0 < size) : slices.length * size + start < n + size := by
  induction tiles with
  | done => simp [positive]
  | @next start stop slices nonempty inside rest ih =>
    rcases slices with _ | ⟨s, slices⟩
    · simp only [List.length_cons, List.length_nil]
      omega
    · have full : stop = start + size := even.full ⟨start, stop⟩ List.mem_cons_self
      have most := (List.forall_mem_cons.mp even.most).2
      have others := ih ⟨fun t ht => even.full t (List.mem_cons_of_mem _ ht), most⟩
      rw [List.length_cons, Nat.succ_mul]
      omega

end Tiles

variable {n w : ℕ}

/-- Cutting up a batch does not fail for lack of workers, nor since a share were too large. -/
theorem chunks?_eq (short : n < 2 ^ 53) (positive : 0 < w) (wanted : Option ℤ) :
    chunks? n w wanted = .ok (chunks n w wanted) := by
  have workers : ((w : ℤ) == 0) = false := by simpa using positive.ne'
  have finite := isInf_eq_false (isFinite_share short positive)
  unfold chunks?
  split
  · rfl
  · simp only [workers, finite, Bool.false_eq_true, if_false, Int.toNat_natCast]

theorem chunkLength_of_wanted {length : ℤ} (positive : 0 < length) (n workers : ℤ) :
    chunkLength n workers (some length) = length := by
  rw [chunkLength, if_pos positive]
  exact Int.toNat_of_nonneg positive.le

theorem chunkLength_of_unwanted {wanted : Option ℤ} (unwanted : ∀ length ∈ wanted, length ≤ 0)
    (n workers : ℤ) : chunkLength n workers wanted = chunkLength.spread n workers := by
  rcases wanted with _ | length
  · rfl
  · exact if_neg (not_lt.mpr (unwanted length rfl))

/-- The slices of a batch are not empty, start at its first row, follow one another and end at its
last row, so that they have each row once. They are all of one length, which is the wanted one if
that is positive, except that the last may be shorter. If no positive length is wanted, there is at
most one slice for each worker. -/
theorem chunks_share_evenly (short : n < 2 ^ 53) (positive : 0 < w) (wanted : Option ℤ) :
    ∃ slices size, chunks? n w wanted = .ok slices ∧ Tiles n 0 slices ∧
      slices.flatMap rows = List.range n ∧
      (∀ s ∈ slices.dropLast, s.stop = s.start + size) ∧
      (∀ s ∈ slices, s.start < s.stop ∧ s.stop ≤ s.start + size) ∧
      (∀ length ∈ wanted, 0 < length → (size : ℤ) = length) ∧
      ((∀ length ∈ wanted, length ≤ 0) → slices.length ≤ w) := by
  have tiles := chunks_tiles n w wanted
  have even : Even (chunkLength n w wanted) (chunks n w wanted) := tile_even _ _ _ _
  have least := chunkLength_pos n w wanted
  have whole : (chunks n w wanted).flatMap rows = List.range n := by
    rw [flatMap_rows tiles, Nat.sub_zero, List.range_eq_range']
  refine ⟨_, _, chunks?_eq short positive wanted, tiles, whole, even.full, ?_, ?_, ?_⟩
  · exact fun s hs => ⟨(mem_tiles tiles s hs).1, even.most s hs⟩
  · rintro length rfl wanted
    exact chunkLength_of_wanted wanted n w
  · intro unwanted
    have covered := le_mul_spread short positive
    rw [← chunkLength_of_unwanted unwanted] at covered
    have few := length_mul_lt tiles even least
    rw [add_zero] at few
    apply Nat.lt_succ_iff.mp
    apply Nat.lt_of_mul_lt_mul_right (a := chunkLength n w wanted)
    calc (chunks n w wanted).length * chunkLength n w wanted
        < n + chunkLength n w wanted := few
      _ ≤ w * chunkLength n w wanted + chunkLength n w wanted := Nat.add_le_add_right covered _
      _ = (w + 1) * chunkLength n w wanted := (Nat.succ_mul _ _).symm

theorem chunks_share_evenly_ten :
    10 < 2 ^ 53 ∧ 0 < 3 ∧ ∃ slices size, chunks? 10 3 none = .ok slices ∧ Tiles 10 0 slices ∧
      slices.flatMap rows = List.range 10 ∧
      (∀ s ∈ slices.dropLast, s.stop = s.start + size) ∧
      (∀ s ∈ slices, s.start < s.stop ∧ s.stop ≤ s.start + size) ∧
      (∀ length ∈ (none : Option ℤ), 0 < length → (size : ℤ) = length) ∧
      ((∀ length ∈ (none : Option ℤ), length ≤ 0) → slices.length ≤ 3) :=
  ⟨by decide, by decide, chunks_share_evenly (by decide) (by decide) none⟩

example : chunks 10 3 none = [⟨0, 4⟩, ⟨4, 8⟩, ⟨8, 10⟩] := by decide +kernel

/-- With one more digit than the format keeps, a share may be rounded to less than it is. -/
example : (chunks (2 ^ 53 + 1) 2 none).length = 3 := by decide +kernel

end BoxSearch.Slice
