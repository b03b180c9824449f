import BoxSearch.Dominance.Basic
import BoxSearch.Dominance.Crowding
import BoxSearch.Fitness
import BoxSearch.Proofs.Related
import BoxSearch.Proofs.Scalar.Akin

/-!
Vectors of kin numbers.

What is computed of a vector alone is kin if the vectors are: moving into a box, sums and means.
What a comparison answers is the same: dominance, the place of the least entry, the order in which
crowding distances are computed.
-/

namespace BoxSearch

variable {R : Float → Float → Prop} [Kinship R]

/-- Batches of kin vectors. -/
abbrev Rows.Kin (R : Float → Float → Prop) (X Y : Rows Float) : Prop :=
  Related (Related R) X Y

namespace Related

theorem eq {β : Type} {xs ys : Array β} (h : Related Eq xs ys) : xs = ys := by
  rw [Related, List.forall₂_eq_eq_eq] at h
  exact Array.toList_inj.mp h

theorem akin {x y : Row Float} (h : Related R x y) : Related Akin x y :=
  h.mono fun _ _ => Kinship.akin

theorem gene {x y : Row Float} (h : Related R x y) (j : Nat) : R (x.gene j) (y.gene j) :=
  h.getD (Kinship.refl _) j

theorem row {S : Float → Float → Prop} {X Y : Rows Float} (h : Rows.Kin S X Y) (i : Nat) :
    Related S (X.row i) (Y.row i) :=
  h.getD .nil i

theorem rows_trans {X Y Z : Rows Float} (h : Rows.Kin R X Y) (h' : Rows.Kin R Y Z) :
    Rows.Kin R X Z := by
  refine trans (fun x y z first second => ?_) h h'
  exact trans (fun _ _ _ => Kinship.trans) first second

theorem column {X Y : Rows Float} (h : Rows.Kin R X Y) (j : Nat) :
    Related R (X.column j) (Y.column j) :=
  h.map fun _ _ row => row.gene j

theorem flatten {S : Float → Float → Prop} {X Y : Rows Float} (h : Rows.Kin S X Y) :
    Related S X.flatten Y.flatten := by
  rw [Related, Array.toList_flatten, Array.toList_flatten]
  apply List.rel_flatten
  rw [List.forall₂_map_left_iff, List.forall₂_map_right_iff]
  exact h

end Related

namespace Scalar

variable {a a' b b' c c' : Float}

theorem larger_kin (ha : R a a') (hb : R b b') : R (larger a b) (larger a' b') := by
  have compared : b < a ↔ b' < a' := (Kinship.akin hb).lt_iff (Kinship.akin ha)
  simp only [larger, (Kinship.akin ha).isNaN_eq, compared]
  split
  · exact ha
  · exact hb

theorem smaller_kin (ha : R a a') (hb : R b b') : R (smaller a b) (smaller a' b') := by
  have compared : a < b ↔ a' < b' := (Kinship.akin ha).lt_iff (Kinship.akin hb)
  simp only [smaller, (Kinship.akin ha).isNaN_eq, compared]
  split
  · exact ha
  · exact hb

theorem clamp_kin (h : R a a') (low : R b b') (high : R c c') :
    R (clamp a b c) (clamp a' b' c') :=
  smaller_kin (larger_kin h low) high

theorem sumFrom_kin {xs ys : List Float} (first : R a a') (h : List.Forall₂ R xs ys) :
    R (sumFrom a xs) (sumFrom a' ys) :=
  List.rel_foldl (P := R) (R := R) (fun _ _ sum _ _ entry => Kinship.add sum entry) first h

theorem laneSum_kin {xs ys : Array Float} (h : Related R xs ys) (lane blocks : Nat) :
    R (laneSum xs lane blocks) (laneSum ys lane blocks) := by
  rw [laneSum, laneSum]
  apply related_foldl
  · exact fun _ _ b sum => Kinship.add sum (h.gene (8 * (b + 1) + lane))
  · exact h.gene lane

theorem blockSum_kin {xs ys : Array Float} (h : Related R xs ys) :
    R (blockSum xs) (blockSum ys) := by
  have lane (j : Nat) := laneSum_kin h j (ys.size / 8)
  simp only [blockSum, h.size_eq]
  exact sumFrom_kin (Kinship.add
    (Kinship.add (Kinship.add (lane 0) (lane 1)) (Kinship.add (lane 2) (lane 3)))
    (Kinship.add (Kinship.add (lane 4) (lane 5)) (Kinship.add (lane 6) (lane 7))))
    (h.extract _ _)

theorem pairwiseSum_kin {xs ys : Array Float} (h : Related R xs ys) :
    R (pairwiseSum xs) (pairwiseSum ys) := by
  have sizes := h.size_eq
  fun_induction pairwiseSum xs generalizing ys
  case case1 xs small none =>
    rw [pairwiseSum, if_pos (sizes ▸ small)]
    rw [Related, none] at h
    generalize ys.toList = l at h
    cases h
    exact Kinship.refl _
  case case2 xs small x rest some =>
    rw [pairwiseSum, if_pos (sizes ▸ small)]
    rw [Related, some] at h
    generalize ys.toList = l at h
    cases h with
    | cons first others => exact sumFrom_kin first others
  case case3 xs large short =>
    rw [pairwiseSum, if_neg (sizes ▸ large), dif_pos (sizes ▸ short)]
    exact blockSum_kin h
  case case4 xs large long half ihl ihr =>
    rw [pairwiseSum.eq_def ys, if_neg (sizes ▸ large), dif_neg (sizes ▸ long), ← sizes]
    have left := h.extract 0 half
    have right := h.extract half xs.size
    exact Kinship.add (ihl left left.size_eq) (ihr right right.size_eq)

/-- Sums start from zero, so that they do not show the sign of a zero. -/
theorem total_eq {xs ys : Array Float} (h : Related R xs ys) : total xs = total ys :=
  Binary.firm_zero.add (pairwiseSum_kin h.akin)

theorem mean_eq {xs ys : Array Float} (h : Related R xs ys) : mean xs = mean ys := by
  rw [mean, mean, total_eq h, h.size_eq]

theorem argMin?_congr {xs ys : Array Float} (h : Related R xs ys) : argMin? xs = argMin? ys := by
  have entry (i : Nat) : Akin (xs.getD i zero) (ys.getD i zero) := h.akin.gene i
  simp only [argMin?, h.size_eq, (entry _).isNaN_eq, (entry _).lt_iff (entry _)]

end Scalar

namespace Rows

theorem meanRow_kin {X Y : Rows Float} (h : Rows.Kin R X Y) (width : Nat) :
    Related R (meanRow width X) (meanRow width Y) := by
  rw [meanRow, meanRow]
  split
  · rw [Scalar.mean_eq (h.column 0)]
    exact .refl Kinship.refl _
  · have sums := h.foldl (T := Related R) (d := Row.tabulate width fun _ => Scalar.zero)
      (fun acc acc' x x' sums row =>
        Related.tabulate (n := width) fun j _ => Kinship.add (sums.gene j) (row.gene j))
      (.refl Kinship.refl _)
    simp only [h.size_eq] at sums ⊢
    exact sums.map fun _ _ sum => Kinship.div _ sum

end Rows

namespace Row

theorem same_eq {x x' y y' : Row Float} (hx : Related R x x') (hy : Related R y y') :
    x.same y = x'.same y' := by
  have entry (j : Nat) : (x.gene j == y.gene j) = (x'.gene j == y'.gene j) :=
    (hx.akin.gene j).beq_eq (hy.akin.gene j)
  simp only [same, hx.size_eq, hy.size_eq, entry]

end Row

namespace Bounds

theorem clip_kin (b : Bounds Float) {x y : Row Float} (h : Related R x y) :
    Related R (b.clip x) (b.clip y) :=
  .tabulate fun j _ => Scalar.clamp_kin (h.gene j) (Kinship.refl _) (Kinship.refl _)

theorem clipRows_kin (b : Bounds Float) {X Y : Rows Float} (h : Rows.Kin R X Y) :
    Rows.Kin R (b.clipRows X) (b.clipRows Y) :=
  h.map fun _ _ row => b.clip_kin row

/-- Vectors of the box stay where they are if they are moved into the box, but zeros may change
their signs. -/
theorem clipRows_akin {b : Bounds Float} {X : Rows Float} (width : ∀ x ∈ X, x.size = b.dim)
    (inside : b.holdsRows X = true) : Rows.Kin Akin X (b.clipRows X) := by
  rw [holdsRows, Array.all_eq_true'] at inside
  apply Related.of_getElem (by simp)
  intro i hi hi'
  have here := Array.getElem_mem hi
  have held := inside _ here
  simp only [holds, List.all_eq_true, List.mem_range, Bool.and_eq_true, decide_eq_true_eq] at held
  simp only [clipRows, Array.getElem_map]
  apply Related.of_getElem (by simp [width _ here])
  intro j hj hj'
  have below : j < b.dim := width _ here ▸ hj
  have entry : X[i].gene j = X[i][j] := by simp [Row.gene, hj]
  have moved : (b.clip X[i])[j] = Scalar.clamp X[i][j] (b.lower.gene j) (b.upper.gene j) := by
    simp [clip, Row.tabulate, entry]
  obtain ⟨low, high⟩ := held j below
  rw [entry] at low high
  rw [moved]
  exact akin_clamp low high

end Bounds

namespace Dominance

variable {a a' b b' : Row Float} {A A' B B' : Rows Float}

theorem nowhereAbove_eq (ha : Related R a a') (hb : Related R b b') :
    nowhereAbove a b = nowhereAbove a' b' := by
  simp only [nowhereAbove, ha.size_eq, (ha.akin.gene _).le_iff (hb.akin.gene _)]

theorem somewhereBelow_eq (ha : Related R a a') (hb : Related R b b') :
    somewhereBelow a b = somewhereBelow a' b' := by
  simp only [somewhereBelow, ha.size_eq, (ha.akin.gene _).lt_iff (hb.akin.gene _)]

theorem dominates_eq (ha : Related R a a') (hb : Related R b b') :
    dominates a b = dominates a' b' := by
  rw [dominates, dominates, nowhereAbove_eq ha hb, somewhereBelow_eq ha hb]

theorem notWorse_eq (ha : Related R a a') (hb : Related R b b') :
    notWorse a b = notWorse a' b' := by
  simp only [notWorse, ha.size_eq, (ha.akin.gene 0).le_iff (hb.akin.gene 0), dominates_eq hb ha]

theorem notWorseRows_eq (hA : Rows.Kin R A A') (hB : Rows.Kin R B B') :
    notWorseRows A B = notWorseRows A' B' := by
  have above : Array.zipWith nowhereAbove B A = Array.zipWith nowhereAbove B' A' :=
    (hB.zipWith hA fun _ _ _ _ row row' => nowhereAbove_eq row row').eq
  have below : Array.zipWith somewhereBelow B A = Array.zipWith somewhereBelow B' A' :=
    (hB.zipWith hA fun _ _ _ _ row row' => somewhereBelow_eq row row').eq
  rw [notWorseRows, notWorseRows, above, below]

theorem dominatesRows_eq (hA : Rows.Kin R A A') (hb : Related R b b') :
    dominatesRows A b = dominatesRows A' b' := by
  have above : A.map (nowhereAbove · b) = A'.map (nowhereAbove · b') :=
    (hA.map fun _ _ row => nowhereAbove_eq row hb).eq
  have below : A.map (somewhereBelow · b) = A'.map (somewhereBelow · b') :=
    (hA.map fun _ _ row => somewhereBelow_eq row hb).eq
  rw [dominatesRows, dominatesRows, above, below]

end Dominance

namespace Fitness

theorem unranked_eq {a a' : Float} (h : Akin a a') : unranked a = unranked a' := by
  rw [unranked, unranked, h.isNaN_eq, h.beq_eq (.refl _)]

theorem ranked_kin {a a' : Float} (h : R a a') : R (ranked a) (ranked a') := by
  rw [ranked, ranked, unranked_eq (Kinship.akin h)]
  split
  · exact Kinship.refl _
  · exact h

theorem rankedRows_kin {F F' : Rows Float} (h : Rows.Kin R F F') :
    Rows.Kin R (rankedRows F) (rankedRows F') :=
  h.map fun _ _ row => row.map fun _ _ => ranked_kin

theorem unrankedCount_eq {F F' : Rows Float} (h : Rows.Kin R F F') :
    unrankedCount F = unrankedCount F' := by
  have list {l l' : List Float} (h : List.Forall₂ R l l') :
      l.countP unranked = l'.countP unranked := by
    induction h with
    | nil => rfl
    | cons first _ ih => simp only [List.countP_cons, unranked_eq (Kinship.akin first), ih]
  rw [unrankedCount, unrankedCount, ← Array.countP_toList, ← Array.countP_toList]
  exact list h.flatten

end Fitness

end BoxSearch
