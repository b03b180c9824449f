import BoxSearch.Dominance.Crowding
import BoxSearch.Proofs.Scalar.Sign

/-!
Crowding distances are numbers.

Every objective adds quotients of gaps by a finite span, and none of these is below zero: the gaps
run along the ranking, and every value between the first and the last one is finite if the span is.
A value that is not a number is ranked last, so that the span is no number either and the objective
adds nothing. So infinite distances of the extremes never meet a negative infinity, and a smallest
distance can always be found.
-/

namespace BoxSearch

open Scalar OrderedScalar

variable {α : Type} [Scalar α]

namespace Crowding

/-- Distances that can be compared: one for each of `n` members, and none of them below zero. -/
structure Comparable (n : Nat) (d : Array α) : Prop where
  size : d.size = n
  nonneg : ∀ x ∈ d, zero ≤ x

theorem comparable_map_const {F : Rows α} {x : α} (hx : zero ≤ x) :
    Comparable F.size (F.map fun _ => x) := by
  refine ⟨by simp, fun y hy => ?_⟩
  obtain ⟨_, _, rfl⟩ := Array.mem_map.mp hy
  exact hx

theorem Comparable.set {n : Nat} {d : Array α} (h : Comparable n d) (i : Nat) {x : α}
    (hx : zero ≤ x) : Comparable n (d.setIfInBounds i x) := by
  refine ⟨by simp [h.size], fun y hy => ?_⟩
  rcases Array.mem_or_eq_of_mem_setIfInBounds hy with old | rfl
  · exact h.nonneg y old
  · exact hx

variable [SignedScalar α]

theorem Comparable.add {n : Nat} {d : Array α} (h : Comparable n d) (i : Nat) {gap : α}
    (hgap : zero ≤ gap) : Comparable n (d.modify i (· + gap)) := by
  refine ⟨by simp [h.size], fun y hy => ?_⟩
  obtain ⟨j, hj, rfl⟩ := Array.getElem_of_mem hy
  rw [Array.size_modify] at hj
  have old : zero ≤ d[j] := h.nonneg _ (Array.getElem_mem hj)
  rw [Array.getElem_modify]
  split
  · exact SignedScalar.add_nonneg old hgap
  · exact old

theorem Comparable.addAll {n : Nat} {gaps : List (Nat × α)} (hgaps : ∀ g ∈ gaps, zero ≤ g.2)
    {d : Array α} (h : Comparable n d) :
    Comparable n (gaps.foldl (fun d (i, gap) => d.modify i (· + gap)) d) := by
  induction gaps generalizing d with
  | nil => exact h
  | cons g gaps ih =>
    have first : Comparable n (d.modify g.1 (· + g.2)) := h.add g.1 (hgaps g List.mem_cons_self)
    exact ih (fun g hg => hgaps g (List.mem_cons_of_mem _ hg)) first

theorem not_precedes_iff {a b : α} : (!precedes b a) = true ↔ isNaN b = true ∨ a ≤ b := by
  have shape : (!precedes b a) = true ↔ ¬b < a ∧ (isNaN a = false ∨ isNaN b = true) := by
    simp [precedes]
  rw [shape]
  constructor
  · rintro ⟨notBelow, numbers⟩
    by_cases number : isNaN b = true
    · exact .inl number
    · have numberA := isNaN_eq_false_iff.mp (numbers.resolve_right number)
      have numberB := isNaN_eq_false_iff.mp (Bool.eq_false_iff.mpr number)
      exact .inr (le_of_not_lt numberB numberA notBelow)
  · rintro (notNumber | ordered)
    · refine ⟨fun below => ?_, .inr notNumber⟩
      have number := isNaN_eq_false_iff.mpr (le_self_of_le (Scalar.le_of_lt below)).1
      exact absurd notNumber (Bool.eq_false_iff.mp number)
    · exact ⟨fun below => not_le_of_lt below ordered,
        .inl (isNaN_eq_false_iff.mpr (le_self_of_le ordered).1)⟩

theorem not_precedes_trans {a b c : α} (hab : (!precedes b a) = true)
    (hbc : (!precedes c b) = true) : (!precedes c a) = true := by
  rw [not_precedes_iff] at hab hbc ⊢
  rcases hbc with notNumber | hbc
  · exact .inl notNumber
  · have number := isNaN_eq_false_iff.mpr (le_self_of_le hbc).1
    exact .inr (le_trans (hab.resolve_left (Bool.eq_false_iff.mp number)) hbc)

theorem not_precedes_total (a b : α) : (!precedes b a || !precedes a b) = true := by
  rw [Bool.or_eq_true, not_precedes_iff, not_precedes_iff]
  by_cases numberB : isNaN b = true
  · exact .inl (.inl numberB)
  · by_cases numberA : isNaN a = true
    · exact .inr (.inl numberA)
    · have numberA := isNaN_eq_false_iff.mp (Bool.eq_false_iff.mpr numberA)
      have numberB := isNaN_eq_false_iff.mp (Bool.eq_false_iff.mpr numberB)
      exact (le_total numberA numberB).imp .inr .inr

/-- A ranking lists numbers in increasing order, and then what is no number. -/
theorem sorted_ranking (values : Array α) :
    (ranking values).Pairwise fun i j =>
      isNaN (values.getD j zero) = true ∨ values.getD i zero ≤ values.getD j zero := by
  have sorted : (ranking values).Pairwise fun i j =>
      (!precedes (values.getD j zero) (values.getD i zero)) = true :=
    List.pairwise_mergeSort (fun _ _ _ => not_precedes_trans) (fun _ _ => not_precedes_total _ _) _
  exact sorted.imp not_precedes_iff.mp

/-- A ranking of numbers lists them in increasing order. -/
theorem pairwise_ranking {values : Array α}
    (number : ∀ i, values.getD i zero ≤ values.getD i zero) :
    (ranking values).Pairwise fun i j => values.getD i zero ≤ values.getD j zero :=
  (sorted_ranking values).imp fun {_ j} h =>
    h.resolve_left (Bool.eq_false_iff.mp (isNaN_eq_false_iff.mpr (number j)))

/-- There is only one way to list different numbers in increasing order. -/
theorem ranking_unique {values : Array α} {order : List Nat}
    (number : ∀ i, values.getD i zero ≤ values.getD i zero)
    (perm : order.Perm (List.range values.size))
    (ascending : order.Pairwise fun i j => values.getD i zero < values.getD j zero) :
    ranking values = order := by
  have same : (ranking values).Perm order := (List.mergeSort_perm _ _).trans perm.symm
  have apart : ∀ i ∈ order, ∀ j ∈ order, i ≠ j →
      values.getD i zero < values.getD j zero ∨ values.getD j zero < values.getD i zero := by
    intro i hi j hj different
    obtain ⟨a, ha, rfl⟩ := List.mem_iff_getElem.mp hi
    obtain ⟨b, hb, rfl⟩ := List.mem_iff_getElem.mp hj
    have places : a ≠ b := fun same => different (by simp [same])
    rcases Nat.lt_or_gt_of_ne places with before | after
    · exact .inl (List.pairwise_iff_getElem.mp ascending a b ha hb before)
    · exact .inr (List.pairwise_iff_getElem.mp ascending b a hb ha after)
  refine List.Perm.eq_of_pairwise ?_ (pairwise_ranking number) (ascending.imp Scalar.le_of_lt) same
  intro i j hi hj hij hji
  by_contra different
  rcases apart i (same.mem_iff.mp hi) j hj different with below | above
  · exact not_le_of_lt below hji
  · exact not_le_of_lt above hij

/-- A list that is in order up to a last number holds numbers only. -/
theorem le_last {values : Array α} {first : Nat} {rest : List Nat}
    (sorted : (first :: rest).Pairwise fun i j =>
      isNaN (values.getD j zero) = true ∨ values.getD i zero ≤ values.getD j zero)
    (number : isNaN (values.getD (rest.getLastD first) zero) = false) {i : Nat}
    (hi : i ∈ first :: rest) : values.getD i zero ≤ values.getD (rest.getLastD first) zero := by
  induction rest generalizing first i with
  | nil =>
    obtain rfl := List.mem_singleton.mp hi
    exact isNaN_eq_false_iff.mp number
  | cons next rest ih =>
    rw [List.getLastD_cons] at number ⊢
    have later {k : Nat} (hk : k ∈ next :: rest) := ih sorted.of_cons number hk
    rcases List.mem_cons.mp hi with rfl | hi
    · -- the next entry is a number, as it is at most the last one
      have atNext := later List.mem_cons_self
      have numberNext := isNaN_eq_false_iff.mpr (le_self_of_le atNext).1
      have step := List.rel_of_pairwise_cons sorted List.mem_cons_self
      exact OrderedScalar.le_trans (step.resolve_left (Bool.eq_false_iff.mp numberNext)) atNext
    · exact later hi

/-- Along a ranking no gap is below zero. -/
theorem gaps_nonneg {values : Array α} {span : α} (finite : isFinite span = true)
    (positive : zero < span) (places : List Nat)
    (sorted : places.Pairwise fun i j => values.getD i zero ≤ values.getD j zero)
    (inside : ∀ i ∈ places, isFinite (values.getD i zero) = true) :
    ∀ g ∈ gaps values span places, zero ≤ g.2 := by
  fun_induction gaps values span places with
  | case1 before here after rest ih =>
    have ordered : values.getD before zero ≤ values.getD after zero :=
      List.rel_of_pairwise_cons sorted (by simp)
    have gap : zero ≤ values.getD after zero - values.getD before zero :=
      SignedScalar.sub_nonneg (inside after (by simp)) (inside before (by simp)) ordered
    intro g hg
    rcases List.mem_cons.mp hg with rfl | later
    · exact SignedScalar.div_nonneg gap finite positive
    · exact ih sorted.of_cons (fun i hi => inside i (List.mem_cons_of_mem _ hi)) g later
  | case2 =>
    intro g hg
    cases hg

/-- One more objective leaves distances that can be compared. -/
theorem comparable_addObjective {n : Nat} {d : Array α} (h : Comparable n d) (values : Array α) :
    Comparable n (addObjective d values) := by
  have sorted := sorted_ranking values
  unfold addObjective
  cases ranked : ranking values with
  | nil => exact h
  | cons first rest =>
    rw [ranked] at sorted
    dsimp only
    have zero_le_infinity : (zero : α) ≤ infinity := le_infinity SignedScalar.zero_le_zero
    have extremes := (h.set first zero_le_infinity).set (rest.getLastD first) zero_le_infinity
    split
    case isTrue => exact extremes
    case isFalse proper =>
      obtain ⟨finite, above⟩ : isFinite (values.getD (rest.getLastD first) zero -
          values.getD first zero) = true ∧ ¬values.getD (rest.getLastD first) zero -
          values.getD first zero ≤ zero := by
        simpa using proper
      have positive :=
        (lt_or_le SignedScalar.zero_le_zero (le_self_of_isFinite finite)).resolve_right above
      obtain ⟨finiteLast, finiteFirst⟩ := SignedScalar.finite_of_sub finite
      have numberLast := isNaN_eq_false_iff.mpr (le_self_of_isFinite finiteLast)
      have below {i : Nat} (hi : i ∈ first :: rest) := le_last sorted numberLast hi
      have ordered : (first :: rest).Pairwise fun i j =>
          values.getD i zero ≤ values.getD j zero := by
        refine sorted.imp_of_mem fun {_ j} _ hj h => h.resolve_left ?_
        exact Bool.eq_false_iff.mp (isNaN_eq_false_iff.mpr (le_self_of_le (below hj)).1)
      apply extremes.addAll
      apply gaps_nonneg finite positive _ ordered
      intro i hi
      have lower : values.getD first zero ≤ values.getD i zero := by
        rcases List.mem_cons.mp hi with rfl | later
        · exact le_self_of_isFinite finiteFirst
        · exact List.rel_of_pairwise_cons ordered later
      exact isFinite_of_between finiteFirst finiteLast lower (below hi)

theorem comparable_foldl_addObjective {n : Nat} (F : Rows α) (objectives : List Nat) {d : Array α}
    (h : Comparable n d) :
    Comparable n (objectives.foldl (fun d m => addObjective d (F.column m)) d) := by
  induction objectives generalizing d with
  | nil => exact h
  | cons m rest ih => exact ih (comparable_addObjective h (F.column m))

/-- No entry of a column of numbers is "not a number", and neither is what is read beyond its
end. -/
theorem column_le_self {F : Rows α} (numeric : ∀ f ∈ F, f.Numeric) (m i : Nat) :
    (F.column m).getD i zero ≤ (F.column m).getD i zero := by
  by_cases hi : i < F.size
  · have entry : (F.column m).getD i zero = F[i].gene m := by simp [Rows.column, hi]
    rw [entry]
    by_cases inside : m < F[i].size
    · exact isNaN_eq_false_iff.mp (numeric F[i] (Array.getElem_mem hi) m inside)
    · have missing : F[i].gene m = zero := by simp [Row.gene, inside]
      rw [missing]
      exact SignedScalar.zero_le_zero
  · have beyond : (F.column m).getD i zero = zero := by simp [Rows.column, hi]
    rw [beyond]
    exact SignedScalar.zero_le_zero

/-- The distances of any rows can be compared. -/
theorem comparable_distances (width : Nat) (F : Rows α) :
    Comparable F.size (distances width F) := by
  have zero_le_infinity : (zero : α) ≤ infinity := le_infinity SignedScalar.zero_le_zero
  unfold distances
  split
  · exact comparable_map_const zero_le_infinity
  · exact comparable_foldl_addObjective F _ (comparable_map_const SignedScalar.zero_le_zero)

end Crowding

end BoxSearch
