import BoxSearch.Archive.Tracker
import BoxSearch.Proofs.Scalar.Order
import BoxSearch.Fitness

/-!
Folding a batch into a tracker comes to offering its rows one after another.

For a front that is how a batch is folded. An incumbent is shown only the first best row of a batch;
that the other rows would have changed nothing holds as long as every fitness is a number, which is
what ranking sees to.
-/

namespace BoxSearch

open Scalar OrderedScalar

variable {α P : Type} [Scalar α]

namespace Fitness

@[simp]
theorem size_rankedRows (F : Rows α) : (rankedRows F).size = F.size :=
  Array.size_map ..

theorem row_rankedRows {F : Rows α} {i : Nat} (h : i < F.size) :
    (rankedRows F).row i = (F.row i).map ranked := by
  simp [rankedRows, Rows.row, h]

/-- What is ranked in place of a value is always a number. -/
theorem isNaN_ranked [OrderedScalar α] (a : α) : isNaN (ranked a) = false := by
  rw [ranked]
  by_cases h : unranked a = true
  · rw [if_pos h]
    exact isNaN_eq_false_iff.mpr infinity_le_self
  · rw [if_neg h]
    rw [unranked, Bool.or_eq_true, not_or] at h
    simpa using h.1

end Fitness

namespace Incumbent

/-- The incumbent after one more point. -/
def take (s : Incumbent α P) (m : Member α P) : Incumbent α P :=
  (s.offer m.x (m.f.gene 0) m.product).2

/-- A point takes the place of the incumbent if there is none or if it is strictly better. -/
theorem take_eq (s : Incumbent α P) (m : Member α P) :
    s.take m = if s.point.isNone = true ∨ m.f.gene 0 < s.fitness
      then ⟨some m.x, m.f.gene 0, m.product⟩ else s := by
  rw [take, offer]
  by_cases h : s.point.isNone = true ∨ m.f.gene 0 < s.fitness
  · rw [if_pos h, if_pos (by simpa using h)]
  · rw [if_neg h, if_neg (by simpa using h)]

variable [OrderedScalar α]

/-- Of two points in a row only the better one counts, the first one if they are equally good. -/
theorem take_take (s : Incumbent α P) {m n : Member α P} (hm : isNaN (m.f.gene 0) = false)
    (hn : isNaN (n.f.gene 0) = false) :
    (s.take m).take n = s.take (if n.f.gene 0 < m.f.gene 0 then n else m) := by
  have numberM := isNaN_eq_false_iff.mp hm
  have numberN := isNaN_eq_false_iff.mp hn
  by_cases hlt : n.f.gene 0 < m.f.gene 0
  · rw [if_pos hlt, take_eq s m]
    by_cases taken : s.point.isNone = true ∨ m.f.gene 0 < s.fitness
    · rw [if_pos taken, take_eq, take_eq, if_pos (.inr hlt),
        if_pos (taken.imp_right fun h => lt_trans hlt h)]
    · rw [if_neg taken]
  · have hle : m.f.gene 0 ≤ n.f.gene 0 := le_of_not_lt numberN numberM hlt
    rw [if_neg hlt, take_eq s m]
    by_cases taken : s.point.isNone = true ∨ m.f.gene 0 < s.fitness
    · rw [if_pos taken, take_eq]
      simp [hlt]
    · rw [if_neg taken, take_eq, if_neg]
      rintro (none | below)
      · exact taken (.inl none)
      · exact taken (.inr (lt_of_le_of_lt hle below))

end Incumbent

/-- The rows of a batch as points. -/
def Batch.members (b : Batch α P) : List (Member α P) :=
  (List.range b.X.size).map fun i => ⟨b.X.row i, b.F.row i, b.product i⟩

/-- A batch with as many fitness rows as points, whose first objective is a number everywhere. -/
structure Batch.Rated (b : Batch α P) : Prop where
  size : b.F.size = b.X.size
  number : ∀ i < b.X.size, isNaN ((b.F.row i).gene 0) = false

theorem Batch.Rated.number_members {b : Batch α P} (rated : b.Rated) :
    ∀ m ∈ b.members, isNaN (m.f.gene 0) = false := by
  intro m hm
  obtain ⟨i, hi, rfl⟩ := List.mem_map.mp hm
  exact rated.number i (List.mem_range.mp hi)

namespace Scalar

/-- One step of the search for the first smallest entry. -/
def leastStep (xs : Array α) (best : Option Nat) (i : Nat) : Option Nat :=
  match best with
  | none => some i
  | some b =>
    if isNaN (xs.getD b zero) then some b
    else if isNaN (xs.getD i zero) || decide (xs.getD i zero < xs.getD b zero) then some i
    else some b

theorem argMin?_eq (xs : Array α) :
    argMin? xs = (List.range xs.size).foldl (leastStep xs) none :=
  rfl

end Scalar

namespace Incumbent

private theorem getD_column {F : Rows α} {i : Nat} (h : i < F.size) :
    (F.column 0).getD i zero = (F.row i).gene 0 := by
  simp [Rows.column, Rows.row, h]

variable [OrderedScalar α]

/-- The first `n` rows of a batch, offered one after another, come to the row that the search for
the smallest entry has found by then. -/
private theorem takesUpTo {b : Batch α P} (rated : b.Rated) (s : Incumbent α P) (n : Nat)
    (hn : n ≤ b.X.size) :
    match (List.range n).foldl (leastStep (b.F.column 0)) none with
    | none => n = 0
    | some i => i < n ∧
        ((List.range n).map fun i => ⟨b.X.row i, b.F.row i, b.product i⟩).foldl take s
          = s.take ⟨b.X.row i, b.F.row i, b.product i⟩ := by
  induction n with
  | zero => rfl
  | succ n ih =>
    have last : (b.F.column 0).getD n zero = (b.F.row n).gene 0 :=
      getD_column (by rw [rated.size]; omega)
    have numberLast := rated.number n (by omega)
    specialize ih (by omega)
    simp only [List.range_succ, List.foldl_append, List.foldl_cons, List.foldl_nil, List.map_append,
      List.map_cons, List.map_nil]
    cases hbest : (List.range n).foldl (leastStep (b.F.column 0)) none with
    | none =>
      simp only [hbest] at ih
      subst ih
      exact ⟨by omega, rfl⟩
    | some i =>
      simp only [hbest] at ih
      obtain ⟨hi, soFar⟩ := ih
      have least : (b.F.column 0).getD i zero = (b.F.row i).gene 0 :=
        getD_column (by rw [rated.size]; omega)
      have numberLeast := rated.number i (by omega)
      rw [soFar, take_take s numberLeast numberLast]
      simp only [leastStep, last, least, numberLast, numberLeast, Bool.false_or, decide_eq_true_eq,
        Bool.false_eq_true, if_false]
      by_cases hlt : (b.F.row n).gene 0 < (b.F.row i).gene 0
      · simp [hlt]
      · simp only [hlt, if_false]
        exact ⟨by omega, trivial⟩

/-- To an incumbent a batch is the same as its rows one after another. -/
theorem offerBatch_eq_foldl {b : Batch α P} (rated : b.Rated) (s : Incumbent α P) :
    (s.offerBatch b.X b.F b.product).2 = b.members.foldl take s := by
  have upTo := takesUpTo rated s b.X.size (Nat.le_refl _)
  have size : (b.F.column 0).size = b.X.size := by simp [Rows.column, rated.size]
  rw [offerBatch, argMin?_eq, size]
  cases hbest : (List.range b.X.size).foldl (leastStep (b.F.column 0)) none with
  | none =>
    simp only [hbest] at upTo
    simp [Batch.members, upTo]
  | some i =>
    simp only [hbest] at upTo
    exact upTo.2.symm

/-- A point that is strictly better than all before it and not worse than any after it. -/
def FirstBest (m : Member α P) (ms : List (Member α P)) : Prop :=
  ∃ before after, ms = before ++ m :: after ∧
    (∀ n ∈ before, m.f.gene 0 < n.f.gene 0) ∧ ∀ n ∈ after, m.f.gene 0 ≤ n.f.gene 0

/-- The incumbent that a point makes. -/
def holding (m : Member α P) : Incumbent α P :=
  ⟨some m.x, m.f.gene 0, m.product⟩

/-- A better point takes over as the first best one. -/
private theorem firstBest_better {best m n : Member α P} {ms : List (Member α P)}
    (better : n.f.gene 0 < m.f.gene 0) (h : FirstBest best (n :: ms)) :
    FirstBest best (m :: n :: ms) := by
  obtain ⟨before, after, split, above, below⟩ := h
  refine ⟨m :: before, after, by rw [split]; rfl, fun k hk => ?_, below⟩
  have first : best.f.gene 0 < m.f.gene 0 := by
    cases before with
    | nil =>
      cases split
      exact better
    | cons k before =>
      cases split
      exact lt_trans (above n List.mem_cons_self) better
  rcases List.mem_cons.mp hk with rfl | hk
  · exact first
  · exact above k hk

/-- A point that is not better than the one before it is never the first best one. -/
private theorem firstBest_kept {best m n : Member α P} {ms : List (Member α P)}
    (kept : m.f.gene 0 ≤ n.f.gene 0) (h : FirstBest best (m :: ms)) :
    FirstBest best (m :: n :: ms) := by
  obtain ⟨before, after, split, above, below⟩ := h
  cases before with
  | nil =>
    cases split
    refine ⟨[], n :: ms, rfl, by simp, fun k hk => ?_⟩
    rcases List.mem_cons.mp hk with rfl | hk
    · exact kept
    · exact below k hk
  | cons k before =>
    cases split
    have second := lt_of_lt_of_le (above m List.mem_cons_self) kept
    refine ⟨m :: n :: before, after, rfl, fun k hk => ?_, below⟩
    rcases List.mem_cons.mp hk with rfl | hk
    · exact above k List.mem_cons_self
    rcases List.mem_cons.mp hk with rfl | hk
    · exact second
    · exact above k (List.mem_cons_of_mem _ hk)

private theorem foldl_take_holding {ms : List (Member α P)} {m : Member α P}
    (number : ∀ n ∈ m :: ms, isNaN (n.f.gene 0) = false) :
    ∃ best, ms.foldl take (holding m) = holding best ∧ FirstBest best (m :: ms) := by
  induction ms generalizing m with
  | nil => exact ⟨m, rfl, [], [], rfl, by simp, by simp⟩
  | cons n ms ih =>
    have numberM := number m List.mem_cons_self
    have numberN := number n (List.mem_cons_of_mem _ List.mem_cons_self)
    by_cases better : n.f.gene 0 < m.f.gene 0
    · have taken : (holding m).take n = holding n := by
        rw [take_eq, if_pos (.inr better), holding]
      obtain ⟨best, held, first⟩ := ih fun k hk => number k (List.mem_cons_of_mem _ hk)
      exact ⟨best, by rw [List.foldl_cons, taken, held], firstBest_better better first⟩
    · have kept : (holding m).take n = holding m := by
        rw [take_eq, if_neg]
        rintro (h | h)
        · cases h
        · exact better h
      have notWorse : m.f.gene 0 ≤ n.f.gene 0 :=
        le_of_not_lt (isNaN_eq_false_iff.mp numberN) (isNaN_eq_false_iff.mp numberM) better
      have numberRest : ∀ k ∈ m :: ms, isNaN (k.f.gene 0) = false := by
        intro k hk
        rcases List.mem_cons.mp hk with rfl | hk
        · exact numberM
        · exact number k (by simp [hk])
      obtain ⟨best, held, first⟩ := ih numberRest
      exact ⟨best, by rw [List.foldl_cons, kept, held], firstBest_kept notWorse first⟩

/-- Of points offered to an incumbent that is still empty, the first best one is what remains. -/
theorem foldl_take_empty {ms : List (Member α P)} (nonempty : ms ≠ [])
    (number : ∀ n ∈ ms, isNaN (n.f.gene 0) = false) :
    ∃ best, ms.foldl take empty = holding best ∧ FirstBest best ms := by
  cases ms with
  | nil => exact absurd rfl nonempty
  | cons m ms => exact foldl_take_holding number

end Incumbent

namespace Tracker

/-- The tracker after one more point. -/
def take : Tracker α P → Member α P → Tracker α P
  | single s, m => single (s.take m)
  | several s, m => several (s.offer m.x m.f m.product).front

/-- The tracker after several batches, one after another. -/
def foldAll (t : Tracker α P) (batches : Array (Batch α P)) : Tracker α P :=
  batches.foldl (fun t b => (t.fold b).1) t

theorem foldl_take_single (s : Incumbent α P) (ms : List (Member α P)) :
    ms.foldl take (single s) = single (ms.foldl Incumbent.take s) := by
  induction ms generalizing s with
  | nil => rfl
  | cons m ms ih => exact ih _

theorem foldl_take_several (s : Front α P) (ms : List (Member α P)) :
    ms.foldl take (several s) =
      several (s.offerAll (ms.map fun m => (m.x, m.f, m.product))).front := by
  -- the counters of a tally play no part, so the induction is over any tally
  have steps (t : Front.Tally α P) :
      ms.foldl take (several t.front) =
        several ((ms.map fun m => (m.x, m.f, m.product)).foldl Front.Tally.offer t).front := by
    induction ms generalizing t with
    | nil => rfl
    | cons m ms ih => exact ih (t.offer (m.x, m.f, m.product))
  exact steps ⟨s, 0, []⟩

variable [OrderedScalar α]

/-- To a tracker a batch is the same as its rows one after another. -/
theorem fold_eq_foldl (t : Tracker α P) {b : Batch α P} (rated : b.Rated) :
    (t.fold b).1 = b.members.foldl take t := by
  cases t with
  | single s =>
    rw [foldl_take_single, fold, Incumbent.offerBatch_eq_foldl rated]
  | several s =>
    have points : b.members.map (fun m => (m.x, m.f, m.product)) = b.points := by
      simp [Batch.members, Batch.points]
    rw [foldl_take_several, points]
    rfl

theorem foldAll_push (t : Tracker α P) (batches : Array (Batch α P)) {b : Batch α P}
    (rated : b.Rated) :
    t.foldAll (batches.push b) = b.members.foldl take (t.foldAll batches) := by
  rw [foldAll, Array.foldl_push, fold_eq_foldl _ rated]
  rfl

end Tracker

end BoxSearch
