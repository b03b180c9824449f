import BoxSearch.Proofs.Random
import BoxSearch.Proofs.Random.Range
import BoxSearch.Proofs.Scalar.Exact
import BoxSearch.Run.Initial
import Mathlib.Data.List.Perm.Subperm

/-!
A latin hypercube in exact arithmetic.

In every dimension of positive length each of the equal strata holds one row. The strata of one
dimension are a point in each, and a shuffle only changes which row has which of them.
-/

namespace BoxSearch

/-- An array with the entries of another one in some order has them at the places of a bijection. -/
theorem exists_bijective_of_perm {β : Type} {n : Nat} {xs ys : Array β} (perm : xs.Perm ys)
    (size : ys.size = n) :
    ∃ place : Fin n → Fin n, place.Bijective ∧
      ∀ (i : Fin n) (other : β), xs.getD i other = ys.getD (place i) other := by
  classical
  have lists : xs.toList.Perm ys.toList := Array.perm_iff_toList_perm.mp perm
  have first : n = xs.toList.length := size.symm.trans lists.length_eq.symm
  have bijective : Function.Bijective lists.idxBij := Function.bijective_iff_has_inverse.mpr
    ⟨_, lists.idxBij_rightInverse_idxBij_symm, lists.idxBij_leftInverse_idxBij_symm⟩
  refine ⟨finCongr size ∘ lists.idxBij ∘ finCongr first, ?_, fun i other => ?_⟩
  · exact (finCongr size).bijective.comp (bijective.comp (finCongr first).bijective)
  · have same := lists.getElem_idxBij_eq_getElem (finCongr first i)
    have here : (i : Nat) < xs.size := i.isLt.trans_eq first
    have there : (lists.idxBij (finCongr first i) : Nat) < ys.size := Fin.isLt _
    rw [Array.getD, dif_pos here, Array.getD]
    exact same.symm.trans (dif_pos there).symm

theorem Row.map_tabulate {α β : Type} (f : α → β) (n : Nat) (rule : Nat → α) :
    (Row.tabulate n rule).map f = Row.tabulate n fun k => f (rule k) := by
  simp [Row.tabulate, Function.comp_def]

namespace Initial

open Draw BoxSearch.Random

variable {n : Nat}

section Strata

variable {α : Type} [Scalar α]

/-- The lower border of the `k`-th of `n` equal strata of the `j`-th interval. -/
def border (bounds : Bounds α) (n j k : Nat) : α :=
  bounds.lower.gene j + Scalar.ofNat k * bounds.span.gene j / Scalar.ofNat n

/-- Rows in the box, one in each of as many equal strata of every interval that has a length. -/
structure Latin (bounds : Bounds α) (n : Nat) (X : Rows α) : Prop where
  size : X.size = n
  inside : ∀ i < n, (X.row i).size = bounds.dim ∧ bounds.holds (X.row i) = true
  covers : ∀ j < bounds.dim, Scalar.zero < bounds.span.gene j → ∀ k < n, ∃! i : Fin n,
    border bounds n j k ≤ (X.row i).gene j ∧ (X.row i).gene j < border bounds n j (k + 1)

/-- The offsets of a point in each of `n` strata. -/
def Offsets (n : Nat) (offsets : Row α) : Prop :=
  ∀ k < n, Scalar.zero ≤ offsets.gene k ∧ offsets.gene k < Scalar.one

/-- The points of one dimension, one in each stratum, in some order. -/
def Stratified (n : Nat) (column : Row α) : Prop :=
  ∃ offsets, Offsets n offsets ∧ column.Perm (strata n offsets)

/-- A row of the sample has in each dimension the point of one of the strata. -/
theorem gene_spread (bounds : Bounds α) {columns : Rows α} {i j : Nat} (row : i < n)
    (inside : j < bounds.dim) :
    ((spread bounds n columns).row i).gene j =
      bounds.lower.gene j + (columns.row j).gene i * bounds.span.gene j := by
  have found : (spread bounds n columns).row i = Row.tabulate bounds.dim fun j =>
      bounds.lower.gene j + (columns.row j).gene i * bounds.span.gene j := by
    simp [spread, Rows.row, row]
  rw [found, Row.gene_tabulate _ _ inside]

end Strata

theorem gene_strata {offsets : Row EReal} (range : Offsets n offsets) {k : Nat} (inside : k < n) :
    ∃ r : ℝ, 0 ≤ r ∧ r < 1 ∧ (strata n offsets).gene k = ((k + r) / n : ℝ) := by
  obtain ⟨low, high⟩ := range k inside
  rw [Exact.zero_eq] at low
  rw [Exact.one_eq] at high
  obtain ⟨r, real⟩ : ∃ r : ℝ, offsets.gene k = r :=
    Exact.isFinite_iff.mp (Scalar.isFinite_iff_between.mpr
      ⟨(EReal.bot_lt_coe 0).trans_le low, high.trans (EReal.coe_lt_top 1)⟩)
  rw [real] at low high
  refine ⟨r, EReal.coe_le_coe_iff.mp low, EReal.coe_lt_coe_iff.mp high, ?_⟩
  rw [strata, Row.gene_tabulate _ _ inside, real, EReal.coe_div, EReal.coe_add]
  rfl

/-- The borders of an interval and its length, as real numbers. -/
theorem exists_interval (bounds : Bounds EReal) {j : Nat} (inside : j < bounds.dim) :
    ∃ l u : ℝ, l ≤ u ∧ bounds.lower.gene j = l ∧ bounds.upper.gene j = u ∧
      bounds.span.gene j = (u - l : ℝ) := by
  obtain ⟨finite, finite'⟩ := bounds.finite j inside
  obtain ⟨l, lower⟩ := Exact.isFinite_iff.mp finite
  obtain ⟨u, upper⟩ := Exact.isFinite_iff.mp finite'
  have ordered := bounds.ordered j inside
  rw [lower, upper] at ordered
  refine ⟨l, u, EReal.coe_le_coe_iff.mp ordered, lower, upper, ?_⟩
  rw [Bounds.span, Row.gene_tabulate _ _ inside, lower, upper, EReal.coe_sub]

/-- The point of a stratum lies in that stratum only. -/
theorem in_stratum_iff {l s r : ℝ} {m k : Nat} (some : 0 < n) (long : 0 < s) (nonneg : 0 ≤ r)
    (below : r < 1) :
    l + k * s / n ≤ l + (m + r) / n * s ∧ l + (m + r) / n * s < l + (k + 1 : ℕ) * s / n ↔
      m = k := by
  have count : (0 : ℝ) < n := Nat.cast_pos.mpr some
  rw [div_mul_eq_mul_div, add_le_add_iff_left, add_lt_add_iff_left,
    div_le_div_iff_of_pos_right count, div_lt_div_iff_of_pos_right count,
    mul_le_mul_iff_left₀ long, mul_lt_mul_iff_left₀ long]
  constructor
  · rintro ⟨above, under⟩
    have least : (k : ℝ) < (m + 1 : ℕ) := by push_cast; linarith
    have greatest : (m : ℝ) < (k + 1 : ℕ) := by linarith
    rw [Nat.cast_lt] at least greatest
    omega
  · rintro rfl
    push_cast
    constructor <;> linarith

/-- The point of a stratum lies in the interval. -/
theorem in_interval {l u r : ℝ} {m : Nat} (inside : m < n) (ordered : l ≤ u) (nonneg : 0 ≤ r)
    (below : r < 1) : l ≤ l + (m + r) / n * (u - l) ∧ l + (m + r) / n * (u - l) ≤ u := by
  have count : (0 : ℝ) < n := Nat.cast_pos.mpr (Nat.zero_lt_of_lt inside)
  have length : 0 ≤ u - l := sub_nonneg.mpr ordered
  have share : 0 ≤ (m + r) / n := by positivity
  have last : (m + 1 : ℝ) ≤ n := by exact_mod_cast inside
  have whole : (m + r) / n ≤ 1 := by
    rw [div_le_one count]
    linarith
  have part : (m + r) / n * (u - l) ≤ u - l := mul_le_of_le_one_left length whole
  exact ⟨le_add_of_nonneg_right (mul_nonneg share length), by linarith⟩

/-- The number in a dimension whose points are a stratum's, in real numbers. -/
theorem gene_spread_of_stratified (bounds : Bounds EReal) {columns : Rows EReal} {j : Nat}
    (inside : j < bounds.dim) {l u : ℝ} (lower : bounds.lower.gene j = l)
    (span : bounds.span.gene j = (u - l : ℝ)) (column : Stratified n (columns.row j)) :
    ∃ place : Fin n → Fin n, place.Bijective ∧ ∀ i : Fin n, ∃ r : ℝ, 0 ≤ r ∧ r < 1 ∧
      ((spread bounds n columns).row i).gene j = (l + ((place i : ℕ) + r) / n * (u - l) : ℝ) := by
  obtain ⟨offsets, range, perm⟩ := column
  obtain ⟨place, bijective, same⟩ := exists_bijective_of_perm perm (Row.size_tabulate _ _)
  refine ⟨place, bijective, fun i => ?_⟩
  obtain ⟨r, nonneg, below, point⟩ := gene_strata range (place i).isLt
  have own : (columns.row j).gene i = (((place i : ℕ) + r) / n : ℝ) := (same i _).trans point
  refine ⟨r, nonneg, below, ?_⟩
  rw [gene_spread bounds i.isLt inside, lower, span, own, EReal.coe_add, EReal.coe_mul]

theorem spread_latin (bounds : Bounds EReal) (n : Nat) {columns : Rows EReal}
    (each : ∀ j < bounds.dim, Stratified n (columns.row j)) :
    Latin bounds n (spread bounds n columns) where
  size := by simp [spread]
  inside := by
    intro i row
    refine ⟨by simp [spread, Rows.row, row], ?_⟩
    rw [Bounds.holds, List.all_eq_true]
    intro j member
    have inside := List.mem_range.mp member
    obtain ⟨l, u, ordered, lower, upper, span⟩ := exists_interval bounds inside
    obtain ⟨place, -, points⟩ := gene_spread_of_stratified bounds inside lower span (each j inside)
    obtain ⟨r, nonneg, below, point⟩ := points ⟨i, row⟩
    obtain ⟨above, under⟩ := in_interval (place ⟨i, row⟩).isLt ordered nonneg below
    rw [Bool.and_eq_true, decide_eq_true_eq, decide_eq_true_eq, lower, upper, point]
    exact ⟨EReal.coe_le_coe above, EReal.coe_le_coe under⟩
  covers := by
    intro j inside long k stratum
    obtain ⟨l, u, ordered, lower, upper, span⟩ := exists_interval bounds inside
    obtain ⟨place, bijective, points⟩ :=
      gene_spread_of_stratified bounds inside lower span (each j inside)
    have positive : 0 < u - l := by
      rw [span, Exact.zero_eq] at long
      exact EReal.coe_lt_coe_iff.mp long
    have border_eq (k : Nat) : border bounds n j k = (l + k * (u - l) / n : ℝ) := by
      rw [border, lower, span, EReal.coe_add, EReal.coe_div, EReal.coe_mul]
      rfl
    have here (i : Fin n) : (border bounds n j k ≤ ((spread bounds n columns).row i).gene j ∧
        ((spread bounds n columns).row i).gene j < border bounds n j (k + 1)) ↔
        place i = ⟨k, stratum⟩ := by
      obtain ⟨r, nonneg, below, point⟩ := points i
      rw [point, border_eq, border_eq, Fin.ext_iff]
      refine Iff.trans (and_congr EReal.coe_le_coe_iff EReal.coe_lt_coe_iff) ?_
      exact in_stratum_iff (Nat.zero_lt_of_lt stratum) positive nonneg below
    simp only [here]
    exact bijective.existsUnique _

/-- The unit numbers of a stream are offsets of points in strata. -/
theorem offsets_units (n : Nat) (g : Generator) :
    Offsets n ((Row.tabulate n g.units).map Scalar.ofFloat : Row EReal) := by
  intro k inside
  obtain ⟨finite, nonneg, below⟩ := g.value_units_mem k
  have number : Row.gene ((Row.tabulate n g.units).map Scalar.ofFloat) k =
      ((Binary.value (g.units k) : ℝ) : EReal) := by
    rw [Row.map_tabulate, Row.gene_tabulate _ _ inside, Exact.ofFloat_eq finite]
  rw [number, Exact.zero_eq, Exact.one_eq]
  exact ⟨EReal.coe_le_coe (by exact_mod_cast nonneg), EReal.coe_lt_coe (by exact_mod_cast below)⟩

theorem yields_latinColumn (n : Nat) :
    (latinColumn n : Draw (Row EReal)).Yields (Stratified n) := by
  intro g
  let points : Row EReal := strata n ((Row.tabulate n g.units).map Scalar.ofFloat)
  have run : (latinColumn n : Draw (Row EReal)).run g =
      (.ok (shuffle points (g.ahead n)).1, (shuffle points (g.ahead n)).2) := by
    rw [latinColumn, run_bind, times_unit]
    rfl
  exact ⟨_, _, run, _, offsets_units n g, perm_shuffleWith _ _ _⟩

/-- The sample is a latin hypercube: for all offsets and all orders of the strata of a dimension,
and so for the ones that any stream gives. -/
theorem latinRows_latin (bounds : Bounds EReal) (n : Nat) :
    (∀ columns : Rows EReal, (∀ j < bounds.dim, Stratified n (columns.row j)) →
      Latin bounds n (spread bounds n columns)) ∧
    (latinRows bounds n).Yields (Latin bounds n) := by
  refine ⟨fun columns each => spread_latin bounds n each, ?_⟩
  refine yields_bind (yields_times (yields_latinColumn n) bounds.dim) fun columns drawn => ?_
  refine yields_pure (spread_latin bounds n fun j inside => ?_)
  have present : j < columns.size := inside.trans_eq drawn.1.symm
  have column : Rows.row columns j = columns[j] := by simp [Rows.row, present]
  rw [column]
  exact drawn.2 _ (Array.getElem_mem _)

/-- The lower ends of the two halves of the unit interval, the upper half first. -/
theorem latinRows_latin_swapped :
    ∃ bounds : Bounds EReal, bounds.span.gene 0 = 1 ∧
      Latin bounds 2 (spread bounds 2 #[(strata 2 #[0, 0]).reverse]) := by
  let bounds : Bounds EReal := {
    lower := #[0]
    upper := #[1]
    sameSize := rfl
    nonempty := Nat.one_pos
    finite := by
      intro j inside
      obtain rfl : j = 0 := by simpa using inside
      exact ⟨Exact.isFinite_iff.mpr ⟨0, rfl⟩, Exact.isFinite_iff.mpr ⟨1, rfl⟩⟩
    ordered := by
      intro j inside
      obtain rfl : j = 0 := by simpa using inside
      exact zero_le_one }
  refine ⟨bounds, ?_, (latinRows_latin bounds 2).1 _ fun j inside => ?_⟩
  · have length : (1 : EReal) - 0 = 1 := sub_zero 1
    exact (Row.gene_tabulate 1 _ Nat.one_pos).trans length
  · obtain rfl : j = 0 := by simpa [Bounds.dim, bounds] using inside
    refine ⟨#[0, 0], fun k inside => ?_, ?_⟩
    · rw [Exact.zero_eq, Exact.one_eq]
      obtain rfl | rfl : k = 0 ∨ k = 1 := by omega
      · exact ⟨le_rfl, zero_lt_one⟩
      · exact ⟨le_rfl, zero_lt_one⟩
    · rw [Array.perm_iff_toList_perm]
      simp [Rows.row]

end Initial

end BoxSearch
