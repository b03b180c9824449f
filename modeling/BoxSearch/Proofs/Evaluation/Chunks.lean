import BoxSearch.Evaluation.Chunk
import BoxSearch.Proofs.Tensor

/-!
Slices of a batch tile it, and the parts of a tiling are put together to the whole.

The parts may be given in any order, since they are sorted by where they start and no two parts of a
tiling start at the same place. What is filled so far is the invariant of putting them together: the
rows up to where the next part starts.
-/

namespace BoxSearch

namespace Slice

/-- Slices that cover the rows from a start up to `n`, one after another, none of them empty. -/
inductive Tiles (n : Nat) : Nat → List Slice → Prop
  | done : Tiles n n []
  | next {start stop : Nat} {slices : List Slice} (nonempty : start < stop) (inside : stop ≤ n)
      (rest : Tiles n stop slices) : Tiles n start (⟨start, stop⟩ :: slices)

theorem chunkLength_pos (n workers : Int) (wanted : Option Int) :
    0 < chunkLength n workers wanted := by
  have spread : 0 < chunkLength.spread n workers :=
    Nat.lt_of_lt_of_le Nat.one_pos (Nat.le_max_left _ _)
  unfold chunkLength
  split
  case h_1 size =>
    split <;> omega
  case h_2 => exact spread

theorem tile_eq_nil {n size : Nat} (fuel : Nat) {start : Nat} (h : n ≤ start) :
    tile n size fuel start = [] := by
  cases fuel with
  | zero => rfl
  | succ fuel => rw [tile, if_neg (Nat.not_lt.mpr h)]

theorem tile_tiles {n size : Nat} (hsize : 0 < size) (fuel start : Nat) (inside : start ≤ n)
    (enough : n ≤ start + fuel) : Tiles n start (tile n size fuel start) := by
  induction fuel generalizing start with
  | zero =>
    have last : start = n := by omega
    rw [last]
    exact .done
  | succ fuel ih =>
    rw [tile]
    by_cases more : start < n
    · rw [if_pos more]
      by_cases whole : start + size ≤ n
      · rw [Nat.min_eq_left whole]
        exact .next (by omega) whole (ih _ whole (by omega))
      · rw [Nat.min_eq_right (by omega), tile_eq_nil fuel (by omega)]
        exact .next more (Nat.le_refl n) .done
    · have last : start = n := by omega
      rw [if_neg more, last]
      exact .done

/-- The chunks of a batch tile it. -/
theorem chunks_tiles (n : Nat) (workers : Int) (wanted : Option Int) :
    Tiles n 0 (chunks n workers wanted) :=
  tile_tiles (chunkLength_pos _ _ _) n 0 (Nat.zero_le n) (by omega)

theorem start_le_of_tiles {n start : Nat} {slices : List Slice} (h : Tiles n start slices) :
    ∀ s ∈ slices, start ≤ s.start := by
  induction h with
  | done => simp
  | next nonempty inside rest ih =>
    intro s hs
    rcases List.mem_cons.mp hs with rfl | hs
    · exact Nat.le_refl _
    · exact Nat.le_trans (Nat.le_of_lt nonempty) (ih s hs)

theorem starts_increase {n start : Nat} {slices : List Slice} (h : Tiles n start slices) :
    slices.Pairwise fun s t => s.start < t.start := by
  induction h with
  | done => exact .nil
  | next nonempty inside rest ih =>
    refine .cons (fun s hs => ?_) ih
    exact Nat.lt_of_lt_of_le nonempty (start_le_of_tiles rest s hs)

theorem mem_tiles {n start : Nat} {slices : List Slice} (h : Tiles n start slices) :
    ∀ s ∈ slices, s.start < s.stop ∧ s.stop ≤ n := by
  induction h with
  | done => simp
  | next nonempty inside rest ih =>
    intro s hs
    rcases List.mem_cons.mp hs with rfl | hs
    · exact ⟨nonempty, inside⟩
    · exact ih s hs

/-- Every row is in one of the slices. -/
theorem exists_slice {n start i : Nat} {slices : List Slice} (h : Tiles n start slices)
    (above : start ≤ i) (below : i < n) : ∃ s ∈ slices, s.start ≤ i ∧ i < s.stop := by
  induction h with
  | done => omega
  | @next start stop slices nonempty inside rest ih =>
    by_cases here : i < stop
    · exact ⟨⟨start, stop⟩, List.mem_cons_self, above, here⟩
    · obtain ⟨s, hs, hi⟩ := ih (by omega)
      exact ⟨s, List.mem_cons_of_mem _ hs, hi⟩

end Slice

namespace Part

variable {α P : Type}

private theorem eq_of_start_eq {parts : List (Part α P)}
    (increase : parts.Pairwise fun p q => p.start < q.start) {p q : Part α P} (hp : p ∈ parts)
    (hq : q ∈ parts) (start : p.start = q.start) : p = q := by
  induction increase with
  | nil => cases hp
  | cons above _ ih =>
    rcases List.mem_cons.mp hp with rfl | hp' <;> rcases List.mem_cons.mp hq with rfl | hq'
    · rfl
    · exact absurd start (Nat.ne_of_lt (above q hq'))
    · exact absurd start.symm (Nat.ne_of_lt (above p hp'))
    · exact ih hp' hq'

/-- Parts in any order are sorted to the order in which their starts increase. -/
theorem inOrder_eq {arrived parts : List (Part α P)} (same : arrived.Perm parts)
    (increase : parts.Pairwise fun p q => p.start < q.start) : inOrder arrived = parts := by
  have sorted : (inOrder arrived).Pairwise fun p q => p.start ≤ q.start := by
    have trans : ∀ p q r : Part α P, decide (p.start ≤ q.start) = true →
        decide (q.start ≤ r.start) = true → decide (p.start ≤ r.start) = true := by
      intro p q r hpq hqr
      simp only [decide_eq_true_eq] at *
      omega
    have total : ∀ p q : Part α P,
        (decide (p.start ≤ q.start) || decide (q.start ≤ p.start)) = true := by
      intro p q
      simp only [Bool.or_eq_true, decide_eq_true_eq]
      omega
    have merged := List.pairwise_mergeSort trans total arrived
    exact merged.imp (by simp)
  have perm : (inOrder arrived).Perm parts := (List.mergeSort_perm _ _).trans same
  refine List.Perm.eq_of_pairwise ?_ sorted (increase.imp Nat.le_of_lt) perm
  intro p q hp hq hpq hqp
  exact eq_of_start_eq increase (perm.mem_iff.mp hp) hq (Nat.le_antisymm hpq hqp)

theorem size_written (rows : Rows α) (start : Nat) (value : Nat → Row α) (m : Nat) :
    ((List.range m).foldl (fun acc i => acc.setIfInBounds (start + i) (value i)) rows).size =
      rows.size := by
  induction m with
  | zero => rfl
  | succ m ih =>
    rw [List.range_succ, List.foldl_append, List.foldl_cons, List.foldl_nil,
      Array.size_setIfInBounds, ih]

/-- Rows written one after another from a start on. -/
theorem getElem?_written (rows : Rows α) (start : Nat) (value : Nat → Row α) (m j : Nat) :
    ((List.range m).foldl (fun acc i => acc.setIfInBounds (start + i) (value i)) rows)[j]? =
      if start ≤ j ∧ j < start + m ∧ j < rows.size then some (value (j - start)) else rows[j]? := by
  induction m with
  | zero =>
    have none : ¬(start ≤ j ∧ j < start + 0 ∧ j < rows.size) := by omega
    rw [if_neg none]
    rfl
  | succ m ih =>
    rw [List.range_succ, List.foldl_append, List.foldl_cons, List.foldl_nil,
      Array.getElem?_setIfInBounds, ih, size_written]
    by_cases hj : start + m = j
    · subst hj
      by_cases inside : start + m < rows.size
      · have here : start ≤ start + m ∧ start + m < start + (m + 1) ∧ start + m < rows.size := by
          omega
        rw [if_pos rfl, if_pos inside, if_pos here, Nat.add_sub_cancel_left]
      · have beyond :
            ¬(start ≤ start + m ∧ start + m < start + (m + 1) ∧ start + m < rows.size) := by
          omega
        rw [if_pos rfl, if_neg inside, if_neg beyond]
        exact (Array.getElem?_eq_none (by omega)).symm
    · have same : (start ≤ j ∧ j < start + m ∧ j < rows.size) ↔
          start ≤ j ∧ j < start + (m + 1) ∧ j < rows.size := by omega
      rw [if_neg hj]
      simp only [same]

/-- The part that a slice of a batch makes: the rows of the slice, all of one width, and their
payloads if the batch has any. -/
def ofSlice (width : Nat) (R : Rows α) (products : Option (Array (Option P))) (s : Slice) :
    Part α P :=
  ⟨s.start, ⟨.ofRows width (R.extract s.start s.stop), products.map (·.extract s.start s.stop)⟩⟩

/-- A batch filled up to a place: the rows are there, and so are the payloads if there are any. -/
structure Filled (n : Nat) (R : Rows α) (products : Option (Array (Option P))) (upTo : Nat)
    (filling : Filling α P) : Prop where
  size : filling.rows.size = n
  rows : ∀ i < upTo, filling.rows[i]? = R[i]?
  bare : products = none → filling.products = none
  paired : ∀ ps, products = some ps → (upTo = 0 ∧ filling.products = none) ∨
    ∃ qs, filling.products = some qs ∧ qs.size = n ∧ ∀ i < upTo, qs[i]? = ps[i]?

/-- Payloads of a slice put between those before and those after it. -/
theorem getElem?_spliced {n start stop : Nat} {old ps : Array (Option P)} (nonempty : start < stop)
    (inside : stop ≤ n) (sizeOld : old.size = n) (size : ps.size = n)
    (soFar : ∀ i < start, old[i]? = ps[i]?) :
    let spliced := old.extract 0 start ++ ps.extract start stop ++ old.extract stop old.size
    spliced.size = n ∧ ∀ i < stop, spliced[i]? = ps[i]? := by
  intro spliced
  refine ⟨by simp [spliced]; omega, fun i hi => ?_⟩
  have sizeFirst : (old.extract 0 start).size = start := by simp; omega
  have sizeSecond : (ps.extract start stop).size = stop - start := by simp; omega
  have sizeBoth : (old.extract 0 start ++ ps.extract start stop).size = stop := by
    rw [Array.size_append, sizeFirst, sizeSecond]
    omega
  rw [Array.getElem?_append_left (by omega)]
  by_cases first : i < start
  · rw [Array.getElem?_append_left (by omega), Array.getElem?_extract, if_pos (by omega),
      Nat.zero_add, soFar i first]
  · have place : start + (i - start) = i := by omega
    rw [Array.getElem?_append_right (by omega), sizeFirst, Array.getElem?_extract,
      if_pos (by omega), place]

/-- A slice of a batch of even rows can be read as rows again. -/
theorem rows?_ofSlice {width : Nat} {R : Rows α} (products : Option (Array (Option P))) (s : Slice)
    (even : ∀ r ∈ R.toList, r.size = width) :
    (ofSlice width R products s).block.fitness.rows? =
      some (width, R.extract s.start s.stop) := by
  refine Tensor.rows?_ofRows fun r hr => even r ?_
  exact Array.mem_toList_iff.mpr (mem_of_mem_extract (Array.mem_toList_iff.mp hr))

/-- The payloads held after those of a part have been put in place. -/
def merged (n start stop : Nat) (products held : Option (Array (Option P))) :
    Option (Array (Option P)) :=
  match products with
  | none => held
  | some ps =>
    let old := held.getD (Array.replicate n none)
    some (old.extract 0 start ++ ps.extract start stop ++ old.extract stop old.size)

/-- The rows held after those of a slice have been put in place. -/
def rowsPlaced (start stop : Nat) (R rows : Rows α) : Rows α :=
  (List.range (R.extract start stop).size).foldl (fun acc i =>
    acc.setIfInBounds (start + i) (Rows.row (R.extract start stop) i)) rows

theorem getElem?_rowsPlaced {n start stop : Nat} {R rows : Rows α} (inside : stop ≤ n)
    (size : R.size = n) (sizeRows : rows.size = n) (soFar : ∀ i < start, rows[i]? = R[i]?) :
    ∀ i < stop, (rowsPlaced start stop R rows)[i]? = R[i]? := by
  intro i hi
  have hR : i < R.size := by omega
  have sizeSlice : (R.extract start stop).size = stop - start := by
    rw [Array.size_extract]
    omega
  rw [rowsPlaced, getElem?_written, sizeSlice, sizeRows]
  by_cases before : i < start
  · rw [if_neg (by omega)]
    exact soFar i before
  · have place : start + (i - start) = i := by omega
    have here : i - start < min stop R.size - start := by omega
    rw [if_pos (by omega), Rows.row, Array.getD_eq_getD_getElem?, Array.getElem?_extract,
      if_pos here, place, Array.getElem?_eq_getElem hR]
    rfl

theorem merged_paired {n start stop : Nat} {ps : Array (Option P)}
    {held : Option (Array (Option P))} (nonempty : start < stop) (inside : stop ≤ n)
    (size : ps.size = n)
    (soFar : (start = 0 ∧ held = none) ∨
      ∃ qs, held = some qs ∧ qs.size = n ∧ ∀ i < start, qs[i]? = ps[i]?) :
    ∃ qs, merged n start stop (some ps) held = some qs ∧ qs.size = n ∧
      ∀ i < stop, qs[i]? = ps[i]? := by
  have sizeOld : (held.getD (Array.replicate n none)).size = n := by
    rcases soFar with ⟨_, empty⟩ | ⟨qs, hqs, sizeQs, _⟩
    · simp [empty]
    · simp [hqs, sizeQs]
  have known : ∀ i < start, (held.getD (Array.replicate n none))[i]? = ps[i]? := by
    intro i hi
    rcases soFar with ⟨first, _⟩ | ⟨qs, hqs, _, known⟩
    · omega
    · simpa [hqs] using known i hi
  obtain ⟨sizeNew, all⟩ := getElem?_spliced nonempty inside sizeOld size known
  exact ⟨_, rfl, sizeNew, all⟩

/-- Putting the part of a slice in place succeeds if the slice lies inside the batch. -/
theorem place_ofSlice {n width start stop : Nat} {R : Rows α}
    {products : Option (Array (Option P))} {filling : Filling α P} (nonempty : start < stop)
    (inside : stop ≤ n) (size : R.size = n) (even : ∀ r ∈ R.toList, r.size = width) :
    place n width filling (ofSlice width R products ⟨start, stop⟩) =
      .ok ⟨rowsPlaced start stop R filling.rows,
        merged n start stop products filling.products⟩ := by
  have cut := rows?_ofSlice products ⟨start, stop⟩ even
  have reaches : start + (R.extract start stop).size = stop := by
    rw [Array.size_extract]
    omega
  have fits : ¬(decide (n < stop) && decide (1 < (R.extract start stop).size)) = true := by
    simp [Nat.not_lt.mpr inside]
  rw [place, cut]
  simp only [ofSlice, bne_self_eq_false, Bool.false_eq_true, if_false, reaches, if_neg fits]
  cases products <;> rfl

theorem place_filled {n width start stop : Nat} {R : Rows α}
    {products : Option (Array (Option P))} {filling : Filling α P} (nonempty : start < stop)
    (inside : stop ≤ n) (size : R.size = n) (even : ∀ r ∈ R.toList, r.size = width)
    (sizes : ∀ ps, products = some ps → ps.size = n) (h : Filled n R products start filling) :
    ∃ next, place n width filling (ofSlice width R products ⟨start, stop⟩) = .ok next ∧
      Filled n R products stop next := by
  refine ⟨_, place_ofSlice nonempty inside size even, ?_, ?_, ?_, ?_⟩
  · exact (size_written _ _ _ _).trans h.size
  · exact getElem?_rowsPlaced inside size h.size h.rows
  · intro none
    subst none
    exact h.bare rfl
  · intro ps hps
    subst hps
    exact .inr (merged_paired nonempty inside (sizes ps rfl) (h.paired ps rfl))

/-- The parts of a tiling fill the batch, one after another. -/
theorem foldlM_filled {n width start : Nat} {R : Rows α} {products : Option (Array (Option P))}
    {filling : Filling α P} {slices : List Slice} (tiles : Slice.Tiles n start slices)
    (size : R.size = n) (even : ∀ r ∈ R.toList, r.size = width)
    (sizes : ∀ ps, products = some ps → ps.size = n) (h : Filled n R products start filling) :
    ∃ last, (slices.map (ofSlice width R products)).foldlM (place n width) filling = .ok last ∧
      Filled n R products n last := by
  induction tiles generalizing filling with
  | done => exact ⟨filling, rfl, h⟩
  | next nonempty inside rest ih =>
    obtain ⟨next, placed, filled⟩ := place_filled nonempty inside size even sizes h
    obtain ⟨last, others, whole⟩ := ih filled
    refine ⟨last, ?_, whole⟩
    rw [List.map_cons, List.foldlM_cons, placed]
    exact others

variable [Scalar α]

/-- The parts of a tiling, in whatever order they arrived, are put together to the whole batch. -/
theorem stitch_eq {n width : Nat} {R : Rows α} {products : Option (Array (Option P))}
    {slices : List Slice} {arrived : List (Part α P)} (nonempty : 0 < n)
    (tiles : Slice.Tiles n 0 slices) (size : R.size = n) (even : ∀ r ∈ R.toList, r.size = width)
    (sizes : ∀ ps, products = some ps → ps.size = n)
    (same : arrived.Perm (slices.map (ofSlice width R products))) :
    stitch n arrived = .ok ⟨.ofRows width R, products⟩ := by
  have increase :
      (slices.map (ofSlice width R products)).Pairwise fun p q => p.start < q.start := by
    rw [List.pairwise_map]
    exact Slice.starts_increase tiles
  have sorted := inOrder_eq same increase
  obtain ⟨q, rest, rfl⟩ : ∃ q rest, arrived = q :: rest := by
    cases arrived with
    | cons q rest => exact ⟨q, rest, rfl⟩
    | nil =>
      have none : slices = [] := by simpa using same.symm.eq_nil
      subst none
      cases tiles
      omega
  obtain ⟨s, _, rfl⟩ := List.mem_map.mp (same.mem_iff.mp List.mem_cons_self)
  have first := rows?_ofSlice products s even
  let start : Filling α P := ⟨Array.replicate n (Array.replicate width Scalar.zero), none⟩
  have blank : Filled n R products 0 start :=
    ⟨by simp [start], by simp, fun _ => rfl, fun ps _ => .inl ⟨rfl, rfl⟩⟩
  obtain ⟨last, placed, filled⟩ := foldlM_filled tiles size even sizes blank
  have rows : last.rows = R := by
    apply Array.ext_getElem?
    intro i
    by_cases hi : i < n
    · exact filled.rows i hi
    · rw [Array.getElem?_eq_none (by rw [filled.size]; omega), Array.getElem?_eq_none (by omega)]
  have payloads : last.products = products := by
    cases products with
    | none => exact filled.bare rfl
    | some ps =>
      rcases filled.paired ps rfl with ⟨zero, _⟩ | ⟨qs, hqs, sizeQs, known⟩
      · omega
      · rw [hqs]
        refine congrArg some (Array.ext_getElem? fun i => ?_)
        by_cases hi : i < n
        · exact known i hi
        · rw [Array.getElem?_eq_none (by omega),
            Array.getElem?_eq_none (by rw [sizes ps rfl]; omega)]
  rw [stitch, List.head?_cons, Option.bind_some, first, sorted]
  change ((slices.map _).foldlM (place n width) start >>= fun filled =>
    pure (⟨.ofRows width filled.rows, filled.products⟩ : Block α P)) = _
  rw [placed, ← rows, ← payloads]
  rfl

end Part

end BoxSearch
