import Mathlib.Data.List.Basic
import BoxSearch.Dominance.Tensor
import BoxSearch.Proofs.Dominance
import BoxSearch.Proofs.Scalar.Binary
import BoxSearch.Proofs.Tensor

/-!
The comparisons of arrays are the comparisons of their rows.

Whoever compares fitness hands over arrays: two vectors, a matrix and a vector, or two matrices. The
operands are stretched to one shape first, so that a vector stands for a matrix whose rows are all
that vector. What is left is one relation, a strict order on vectors of numbers, which every
comparison asks in its own way.
-/

namespace BoxSearch

namespace Tensor

variable {α β γ : Type}

/-- What a combination is made of, once both arrays are known at every place of the common shape. -/
theorem combine_eq {f : α → β → γ} {a : Tensor α} {b : Tensor β} {shape : List Nat}
    {x : Nat → α} {y : Nat → β} (common : commonShape? a.shape b.shape = some shape)
    (left : ∀ place < places shape, a.stretchedEntry? shape place = some (x place))
    (right : ∀ place < places shape, b.stretchedEntry? shape place = some (y place)) :
    combine f a b =
      .ok ⟨shape, (Array.range (places shape)).map fun place => f (x place) (y place)⟩ := by
  rw [combine, common]
  simp only [Except.ok.injEq, mk.injEq, true_and]
  apply Array.toList_inj.mp
  rw [Array.toList_filterMap, Array.toList_map, ← List.filterMap_eq_map]
  apply List.filterMap_congr
  intro place inside
  have below : place < places shape := by simpa using inside
  rw [left place below, right place below]
  rfl

/-- Entries that are given by a rule, cut into rows. -/
theorem cut_map_range (count width : Nat) (rule : Nat → α) :
    cut count width ((Array.range (count * width)).map rule) =
      (Array.range count).map fun i => (Array.range width).map fun j => rule (i * width + j) := by
  apply Array.ext
  · simp
  intro i hi hi'
  have below : i < count := by simpa using hi
  have last : (i + 1) * width ≤ count * width := Nat.mul_le_mul_right _ below
  have next : (i + 1) * width = i * width + width := Nat.succ_mul i width
  simp only [cut, Array.getElem_map, Array.getElem_range]
  apply Array.ext
  · simp only [Array.size_extract, Array.size_map, Array.size_range]
    omega
  · intro j hj hj'
    simp

variable [Scalar α]

theorem getElem?_gene {b : Row α} {j : Nat} (hj : j < b.size) : b[j]? = some (b.gene j) := by
  simp [Row.gene, hj]

/-- Rows of one width, laid end to end: the entry of a row at a place. -/
theorem getElem?_flatten {width : Nat} {rows : Rows α} (even : ∀ r ∈ rows.toList, r.size = width)
    {i j : Nat} (hi : i < rows.size) (hj : j < width) :
    rows.flatten[i * width + j]? = some ((rows.row i).gene j) := by
  have row : rows.row i = rows.flatten.extract (i * width) ((i + 1) * width) := by
    have again := congrArg (·.row i) (cut_flatten even)
    simpa [Rows.row, cut, hi] using again.symm
  have size : (rows.row i).size = width := by
    simpa [Rows.row, hi] using even rows[i] (Array.mem_toList_iff.mpr (Array.getElem_mem hi))
  have full : rows.flatten.size = rows.size * width := size_flatten even
  have last : (i + 1) * width ≤ rows.size * width := Nat.mul_le_mul_right _ hi
  have next : (i + 1) * width = i * width + width := Nat.succ_mul i width
  rw [← getElem?_gene (by rwa [size]), row, Array.getElem?_extract, if_pos (by omega)]

/-- Stretched to `count` rows of `width` entries, the array has the rows that are given. -/
structure Stretches (t : Tensor α) (count width : Nat) (row : Nat → Row α) : Prop where
  size : ∀ i < count, (row i).size = width
  entry : ∀ i < count, ∀ j < width,
    t.stretchedEntry? [count, width] (i * width + j) = some ((row i).gene j)

namespace Stretches

variable {A B : Tensor α} {count width : Nat} {x y : Nat → Row α}

theorem ofRows {rows : Rows α} (even : ∀ r ∈ rows.toList, r.size = width) :
    (Tensor.ofRows width rows).Stretches rows.size width rows.row where
  size i hi := by
    simpa [Rows.row, hi] using even rows[i] (Array.mem_toList_iff.mpr (Array.getElem_mem hi))
  entry i hi j hj := by
    have last : (i + 1) * width ≤ rows.size * width := Nat.mul_le_mul_right _ hi
    have next : (i + 1) * width = i * width + width := Nat.succ_mul i width
    have inside : (i * width + j) % (rows.size * width) = i * width + j :=
      Nat.mod_eq_of_lt (by omega)
    have itself := stretchedEntry?_append (Tensor.ofRows width rows) [] (i * width + j)
    rw [← getElem?_flatten even hi hj]
    simpa [Tensor.ofRows, places, inside] using itself

theorem ofRow {b : Row α} (size : b.size = width) (count : Nat) :
    (Tensor.ofRow b).Stretches count width fun _ => b where
  size _ _ := size
  entry i hi j hj := by
    have place : (i * width + j) % width = j := by
      rw [Nat.mul_add_mod_self_right, Nat.mod_eq_of_lt hj]
    have repeated := stretchedEntry?_append (Tensor.ofRow b) [count] (i * width + j)
    rw [← getElem?_gene (by rwa [size])]
    simpa [Tensor.ofRow, places, size, place] using repeated

/-- The entry at a place of the common shape, by row and place in the row. -/
theorem entry_place (h : A.Stretches count width x) {place : Nat}
    (inside : place < places [count, width]) :
    A.stretchedEntry? [count, width] place = some ((x (place / width)).gene (place % width)) := by
  have bound : place < width * count := by simpa [places, Nat.mul_comm] using inside
  have row : place / width < count := Nat.div_lt_of_lt_mul bound
  have positive : 0 < width := Nat.pos_of_mul_pos_right (Nat.zero_lt_of_lt bound)
  have entry := h.entry _ row _ (Nat.mod_lt place positive)
  rwa [Nat.div_add_mod'] at entry

/-- Two arrays that are stretched to a matrix are combined row by row. -/
theorem combine (hA : A.Stretches count width x) (hB : B.Stretches count width y)
    (common : commonShape? A.shape B.shape = some [count, width]) (f : α → α → γ) :
    ∃ entries, Tensor.combine f A B = .ok ⟨[count, width], entries⟩ ∧
      cut count width entries = (Array.range count).map fun i =>
        (Array.range width).map fun j => f ((x i).gene j) ((y i).gene j) := by
  refine ⟨_, combine_eq common (fun _ => hA.entry_place) (fun _ => hB.entry_place), ?_⟩
  have number : places [count, width] = count * width := by simp [places]
  rw [number, cut_map_range]
  apply Array.map_congr_left
  intro i _
  apply Array.map_congr_left
  intro j hj
  have below : j < width := by simpa using hj
  have row : (i * width + j) / width = i := by
    rw [Nat.mul_comm, Nat.mul_add_div (by omega), Nat.div_eq_of_lt below, Nat.add_zero]
  have place : (i * width + j) % width = j := by
    rw [Nat.mul_add_mod_self_right, Nat.mod_eq_of_lt below]
  rw [row, place]

end Stretches

end Tensor

theorem Rows.map_row {α β : Type} [Scalar α] (A : Rows α) (f : Row α → β) :
    ((Array.range A.size).map fun i => f (A.row i)) = A.map f := by
  apply Array.ext
  · simp
  · intro i hi hi'
    have inside : i < A.size := by simpa using hi'
    simp [Rows.row, inside]

namespace Dominance

open OrderedScalar Scalar Tensor

variable {α : Type} [Scalar α] {width : Nat}

section Rows

variable {A B : Rows α} {b : Row α}

theorem dominatesRows_eq_map (A : Rows α) (b : Row α) :
    dominatesRows A b = A.map (dominates · b) := by
  simp [dominatesRows, Array.zipWith_map, Array.zipWith_self, dominates]

theorem dominatedRows_eq_map (A : Rows α) (b : Row α) :
    dominatedRows A b = A.map (dominates b ·) := by
  simp [dominatedRows, dominates]

theorem notWorseRows_eq_map (same : A.size = B.size) :
    notWorseRows A B = (Array.range A.size).map fun i => !dominates (B.row i) (A.row i) := by
  apply Array.ext
  · simp [notWorseRows, same]
  · intro i hi hi'
    have insideA : i < A.size := by simpa using hi'
    have entry := getElem?_notWorseRows insideA (same ▸ insideA)
    rw [Array.getElem?_eq_getElem hi, Option.some_inj] at entry
    simp [entry]

end Rows

section Arrays

/-- The two comparisons that make up dominance, entry by entry first and taken together after. -/
theorem dominates_eq_entries {a : Row α} (size : a.size = width) (b : Row α) :
    dominates a b =
      (((Array.range width).map fun j => decide (a.gene j ≤ b.gene j)).all id &&
        ((Array.range width).map fun j => decide (a.gene j < b.gene j)).any id) := by
  rw [← Array.all_toList, ← Array.any_toList]
  simp [dominates, nowhereAbove, somewhereBelow, size, List.all_map, List.any_map]

variable {A B : Tensor α} {count : Nat} {x y : Nat → Row α}

/-- Row by row dominance of two arrays that are stretched to a matrix. -/
theorem dominatesRowsTensor_of_stretches (hA : A.Stretches count width x)
    (hB : B.Stretches count width y)
    (common : commonShape? A.shape B.shape = some [count, width]) :
    dominatesRowsTensor A B = .ok ((Array.range count).map fun i => dominates (x i) (y i)) := by
  obtain ⟨le, hle, rowsLe⟩ := hA.combine hB common fun x y => decide (x ≤ y)
  obtain ⟨lt, hlt, rowsLt⟩ := hA.combine hB common fun x y => decide (x < y)
  rw [dominatesRowsTensor_eq hle hlt, rowsLe, rowsLt, Except.ok.injEq]
  apply Array.ext
  · simp
  · intro i hi hi'
    have size : (x i).size = width := hA.size i (by simpa using hi')
    simp only [Array.getElem_zipWith, Array.getElem_map, Array.getElem_range,
      dominates_eq_entries size]

theorem dominatesTensor_ofRow {a b : Row α} (same : a.size = b.size) :
    dominatesTensor (.ofRow a) (.ofRow b) = .ok (dominates a b) := by
  have number : places [a.size] = a.size := by simp [places]
  have entry {c : Row α} (size : c.size = a.size) (place : Nat) (inside : place < places [a.size]) :
      Tensor.stretchedEntry? (.ofRow c) [a.size] place = some (c.gene place) := by
    have below : place < c.size := by rwa [size, ← number]
    have itself := stretchedEntry?_append (Tensor.ofRow c) [] place
    rw [← getElem?_gene below]
    simpa [Tensor.ofRow, places, ← size, Nat.mod_eq_of_lt below] using itself
  have common : commonShape? (Tensor.ofRow a).shape (Tensor.ofRow b).shape = some [a.size] := by
    simpa [Tensor.ofRow, same] using commonShape?_append [] [a.size]
  have combined (f : α → α → Bool) := combine_eq (f := f) common (entry rfl) (entry same.symm)
  rw [dominatesTensor, combined, combined, number, dominates_eq_entries rfl]
  rfl

theorem notWorseTensor_ofRow {a b : Row α} (same : a.size = b.size) :
    notWorseTensor (.ofRow a) (.ofRow b) = .ok (notWorse a b) := by
  have entries (x : Row α) : (Tensor.ofRow x).entries = x := rfl
  by_cases single : a.size = 1
  · have first {x : Row α} (size : x.size = 1) : x[0]? = some (x.gene 0) :=
      getElem?_gene (by rw [size]; exact Nat.one_pos)
    rw [notWorseTensor, entries, entries, first single, first (same ▸ single)]
    simp [notWorse, single]
  · rw [notWorseTensor, entries, dominatesTensor_ofRow same.symm]
    simp [notWorse, single, Except.map]

section Matrices

variable {A B : Rows α} {b : Row α}

theorem dominatesRowsTensor_ofRows (even : ∀ r ∈ A.toList, r.size = width)
    (size : b.size = width) :
    dominatesRowsTensor (.ofRows width A) (.ofRow b) = .ok (dominatesRows A b) := by
  have common : commonShape? (Tensor.ofRows width A).shape (Tensor.ofRow b).shape =
      some [A.size, width] := by
    simpa [Tensor.ofRows, Tensor.ofRow, size] using commonShape?_append_left [A.size] [width]
  rw [dominatesRowsTensor_of_stretches (.ofRows even) (.ofRow size A.size) common,
    dominatesRows_eq_map, Rows.map_row A (dominates · b)]

theorem dominatedRowsTensor_ofRows (even : ∀ r ∈ A.toList, r.size = width)
    (size : b.size = width) :
    dominatedRowsTensor (.ofRows width A) (.ofRow b) = .ok (dominatedRows A b) := by
  have common : commonShape? (Tensor.ofRow b).shape (Tensor.ofRows width A).shape =
      some [A.size, width] := by
    simpa [Tensor.ofRows, Tensor.ofRow, size] using commonShape?_append [A.size] [width]
  rw [dominatedRowsTensor,
    dominatesRowsTensor_of_stretches (.ofRow size A.size) (.ofRows even) common,
    dominatedRows_eq_map, Rows.map_row A (dominates b ·)]

theorem notWorseRowsTensor_ofRows (evenA : ∀ r ∈ A.toList, r.size = width)
    (evenB : ∀ r ∈ B.toList, r.size = width) (same : A.size = B.size) :
    notWorseRowsTensor (.ofRows width A) (.ofRows width B) = .ok (notWorseRows A B) := by
  have shapes : (Tensor.ofRows width A).shape = (Tensor.ofRows width B).shape := by
    simp [Tensor.ofRows, same]
  have common : commonShape? (Tensor.ofRows width B).shape (Tensor.ofRows width A).shape =
      some [A.size, width] := by
    simpa [Tensor.ofRows, same] using commonShape?_append [] [B.size, width]
  have rowsB : (Tensor.ofRows width B).Stretches A.size width B.row := same ▸ .ofRows evenB
  have mask := dominatesRowsTensor_of_stretches rowsB (.ofRows evenA) common
  have entries : ((Tensor.ofRows width A).entries.size != (Tensor.ofRows width B).entries.size) =
      false := by
    simp [Tensor.ofRows, size_flatten evenA, size_flatten evenB, same]
  rw [notWorseRowsTensor, entries, notWorseRows_eq_map same]
  simp only [Bool.false_eq_true, if_false, shapes]
  change (dominatesRowsTensor (.ofRows width B) (.ofRows width A)).map _ = _
  rw [mask]
  simp [Except.map, Function.comp_def]

end Matrices

/-- Two vectors are compared as two columns: every entry is a vector of its own. -/
theorem notWorseRowsTensor_ofRow {a b : Row α} (same : a.size = b.size) :
    notWorseRowsTensor (.ofRow a) (.ofRow b) =
      .ok ((Array.range a.size).map fun i => notWorse #[a.gene i] #[b.gene i]) := by
  have entries (x : Row α) : (Tensor.ofRow x).entries = x := rfl
  have shape : (Tensor.ofRow a).shape = [a.size] := rfl
  rw [notWorseRowsTensor, entries, entries, shape, same]
  simp only [bne_self_eq_false, Bool.false_eq_true, if_false, Except.ok.injEq]
  apply Array.ext
  · simp [same]
  · intro i hi hi'
    have inside : i < b.size := by simpa using hi'
    simp [notWorse, Row.gene, inside, same]

end Arrays

section Order

variable [OrderedScalar α]

/-- A fitness vector of `width` numbers, of which any may be infinite. -/
structure Numbers (width : Nat) (a : Row α) : Prop where
  size : a.size = width
  numeric : a.Numeric

variable {a b : Row α}

/-- On a single objective, too, "not worse" is the absence of dominance the other way. -/
theorem notWorse_iff (ha : Numbers width a) (hb : Numbers width b) :
    notWorse a b = true ↔ dominates b a = false := by
  by_cases single : width = 1
  · have sizeA : a.size = 1 := ha.size.trans single
    have sizeB : b.size = 1 := hb.size.trans single
    have numberA : a.gene 0 ≤ a.gene 0 := isNaN_eq_false_iff.mp (ha.numeric 0 (by omega))
    have numberB : b.gene 0 ≤ b.gene 0 := isNaN_eq_false_iff.mp (hb.numeric 0 (by omega))
    rw [Bool.eq_false_iff, Ne, dominates_iff_lt sizeB]
    simp only [notWorse, sizeA, beq_self_eq_true, if_true, decide_eq_true_eq]
    exact ⟨fun le lt => not_le_of_lt lt le, le_of_not_lt numberB numberA⟩
  · simp [notWorse, ha.size, single]

theorem notWorse_total (ha : Numbers width a) (hb : Numbers width b) :
    notWorse a b = true ∨ notWorse b a = true := by
  rw [notWorse_iff ha hb, notWorse_iff hb ha]
  by_cases below : dominates b a = true
  · exact .inr (dominates_asymm (hb.size.trans ha.size.symm) below)
  · exact .inl (Bool.eq_false_iff.mpr below)

theorem notWorseRows_eq_zipWith {A B : Rows α} (hA : ∀ r ∈ A, Numbers width r)
    (hB : ∀ r ∈ B, Numbers width r) (same : A.size = B.size) :
    notWorseRows A B = Array.zipWith notWorse A B := by
  rw [notWorseRows_eq_map same]
  apply Array.ext
  · simp [same]
  · intro i hi hi'
    have insideA : i < A.size := by simpa using hi
    have insideB : i < B.size := same ▸ insideA
    have agree := notWorse_iff (hA _ (Array.getElem_mem insideA)) (hB _ (Array.getElem_mem insideB))
    simp only [Array.getElem_map, Array.getElem_range, Array.getElem_zipWith, Rows.row,
      Array.getD_eq_getD_getElem?, Array.getElem?_eq_getElem insideA,
      Array.getElem?_eq_getElem insideB, Option.getD_some]
    rw [Bool.eq_iff_iff, Bool.not_eq_true', agree]

/-- The comparisons are one strict order on vectors of numbers of one width. For two vectors, for a
matrix and a vector and for two matrices each of them answers, and what it says of a row is what
the comparison of two vectors says. -/
theorem comparisons_consistent (width : Nat) :
    (∀ a b : Row α, Numbers width a → Numbers width b →
      dominatesTensor (.ofRow a) (.ofRow b) = .ok (dominates a b) ∧
      notWorseTensor (.ofRow a) (.ofRow b) = .ok (notWorse a b) ∧
      dominates a a = false ∧
      (dominates a b = true → dominates b a = false) ∧
      (notWorse a b = true ↔ dominates b a = false) ∧
      notWorse a a = true ∧
      (notWorse a b = true ∨ notWorse b a = true)) ∧
    (∀ a b c : Row α, Numbers width a → Numbers width b → Numbers width c →
      dominates a b = true → dominates b c = true → dominates a c = true) ∧
    (∀ (A B : Rows α) (b : Row α), (∀ r ∈ A, Numbers width r) → (∀ r ∈ B, Numbers width r) →
      A.size = B.size → Numbers width b →
      dominatesRowsTensor (.ofRows width A) (.ofRow b) = .ok (A.map (dominates · b)) ∧
      dominatedRowsTensor (.ofRows width A) (.ofRow b) = .ok (A.map (dominates b ·)) ∧
      notWorseRowsTensor (.ofRows width A) (.ofRows width B) = .ok (Array.zipWith notWorse A B) ∧
      dominatesRows A b = A.map (dominates · b) ∧
      dominatedRows A b = A.map (dominates b ·) ∧
      notWorseRows A B = Array.zipWith notWorse A B) := by
  refine ⟨fun a b ha hb => ?_, fun a b c ha hb hc => ?_, fun A B b hA hB same hb => ?_⟩
  · have same : a.size = b.size := ha.size.trans hb.size.symm
    exact ⟨dominatesTensor_ofRow same, notWorseTensor_ofRow same, dominates_irrefl a,
      dominates_asymm same, notWorse_iff ha hb, (notWorse_iff ha ha).mpr (dominates_irrefl a),
      notWorse_total ha hb⟩
  · exact dominates_trans (ha.size.trans hb.size.symm)
  · have evenA : ∀ r ∈ A.toList, r.size = width := fun r hr => (hA r (by simpa using hr)).size
    have evenB : ∀ r ∈ B.toList, r.size = width := fun r hr => (hB r (by simpa using hr)).size
    have rows := notWorseRows_eq_zipWith hA hB same
    refine ⟨?_, ?_, ?_, dominatesRows_eq_map A b, dominatedRows_eq_map A b, rows⟩
    · rw [dominatesRowsTensor_ofRows evenA hb.size, dominatesRows_eq_map]
    · rw [dominatedRowsTensor_ofRows evenA hb.size, dominatedRows_eq_map]
    · rw [notWorseRowsTensor_ofRows evenA evenB same, rows]

/-- A vector may dominate another in spite of an infinite entry, and two that are finite nowhere are
equally good. -/
theorem comparisons_consistent_infinite :
    let infinite : Row Float := #[Scalar.infinity, Scalar.infinity]
    let half : Row Float := #[1.0, Scalar.infinity]
    dominates half infinite = true ∧
      dominatesTensor (.ofRow infinite) (.ofRow half) = .ok false ∧
      notWorseTensor (.ofRow infinite) (.ofRow infinite) = .ok true ∧
      dominatesRowsTensor (.ofRows 2 #[half, infinite]) (.ofRow infinite) = .ok #[true, false] := by
  intro infinite half
  have numbersInfinite : Numbers 2 infinite := ⟨rfl, by decide +kernel⟩
  have numbersHalf : Numbers 2 half := ⟨rfl, by decide +kernel⟩
  have rows : ∀ r ∈ (#[half, infinite] : Rows Float), Numbers 2 r := by
    simpa using ⟨numbersHalf, numbersInfinite⟩
  have below : dominates half infinite = true := by decide +kernel
  obtain ⟨pairs, -, batches⟩ := comparisons_consistent (α := Float) 2
  obtain ⟨answer, -, -, -, -, -, -⟩ := pairs infinite half numbersInfinite numbersHalf
  obtain ⟨-, -, -, asymm, -, -, -⟩ := pairs half infinite numbersHalf numbersInfinite
  obtain ⟨-, kept, irrefl, -, -, equal, -⟩ := pairs infinite infinite numbersInfinite numbersInfinite
  obtain ⟨mask, -, -, -, -, -⟩ := batches _ _ _ rows rows rfl numbersInfinite
  refine ⟨below, by rw [answer, asymm below], by rw [kept, equal], ?_⟩
  rw [mask]
  simp [below, irrefl]

end Order

end Dominance

end BoxSearch
