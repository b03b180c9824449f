import BoxSearch.Proofs.Strategy.Improvement
import Mathlib.Data.List.Nodup
import Mathlib.Data.List.Pairwise

/-!
The better half of a family survives.

A family consists of two parents, who hold a place of the population each, and of their two children.
Each child challenges the weaker one of the two that hold the places when its turn comes. So with a
single objective nobody who is out is better than those who hold the places, whoever comes first. No
individual is in two pairs, so one family does not interfere with another.
-/

namespace BoxSearch

open Search Scalar OrderedScalar

variable {σ P : Type}

/-- The individual that holds a place of the population: a position and its fitness. -/
def Run.holder (run : Run Float P) (i : Nat) : Option (Row Float × Row Float) :=
  run.F.map fun F => (run.X.row i, F.row i)

namespace Run

variable {run run' : Run Float P} {F : Rows Float}

theorem holder_eq (h : run.F = some F) (i : Nat) : run.holder i = some (run.X.row i, F.row i) := by
  rw [holder, h]
  rfl

theorem holder_congr (X : run'.X = run.X) (F : run'.F = run.F) (i : Nat) :
    run'.holder i = run.holder i := by
  rw [holder, holder, X, F]

/-- An individual takes a place, and all others keep theirs. -/
theorem holder_overwrite (h : run.F = some F) {i : Nat} (insideX : i < run.X.size)
    (insideF : i < F.size) {x : Row Float} (boxed : run.bounds.clip x = x) (f : Row Float) (j : Nat) :
    (run.overwrite [i] #[x] #[f]).holder j = if j = i then some (x, f) else run.holder j := by
  have known : (run.overwrite [i] #[x] #[f]).F = some (writeAt F [i] #[f]) := by
    change run.F.map _ = _
    rw [h]
    rfl
  have moved : (run.overwrite [i] #[x] #[f]).X = writeAt run.X [i] #[x] := by
    have still : run.bounds.clipRows #[x] = #[x] := by simp [Bounds.clipRows, boxed]
    change writeAt run.X [i] (run.bounds.clipRows #[x]) = _
    rw [still]
  rw [holder_eq known, holder_eq h, moved]
  by_cases here : j = i
  · simp [writeAt, Rows.row, here, insideX, insideF]
  · have elsewhere {Y : Rows Float} (y : Row Float) : Rows.row (writeAt Y [i] #[y]) j = Y.row j := by
      apply row_eq_of_getElem?
      simp [writeAt, Ne.symm here]
    rw [elsewhere, elsewhere, if_neg here]

/-- A population of `n` in a box, with a single objective, all of which has been evaluated. -/
structure Ranked (box : Bounds Float) (n : Nat) (run : Run Float P) : Prop where
  bounds : run.bounds = box
  popSize : run.popSize = n
  positions : run.X.size = n
  scored : ∃ F, run.Scored F

end Run

namespace Genetic

open Run

section Family

variable {box : Bounds Float} {n a b : Nat} {run : Run Float P} {child c d : Row Float × Row Float}
  {all : List (Row Float × Row Float)}

/-- Two of some individuals hold two places. None of those who are out is better than either. -/
def BestHold (run : Run Float P) (a b : Nat) (all : List (Row Float × Row Float)) : Prop :=
  ∃ v w out, run.holder a = some v ∧ run.holder b = some w ∧ all.Perm (v :: w :: out) ∧
    ∀ o ∈ out, v.2.gene 0 ≤ o.2.gene 0 ∧ w.2.gene 0 ≤ o.2.gene 0

theorem BestHold.symm (h : BestHold run a b all) : BestHold run b a all := by
  obtain ⟨v, w, out, holdsA, holdsB, perm, best⟩ := h
  exact ⟨w, v, out, holdsB, holdsA, perm.trans (.swap w v out), fun o ho => (best o ho).symm⟩

theorem BestHold.perm {all' : List (Row Float × Row Float)} (h : BestHold run a b all)
    (perm : all'.Perm all) : BestHold run a b all' := by
  obtain ⟨v, w, out, holdsA, holdsB, perm', best⟩ := h
  exact ⟨v, w, out, holdsA, holdsB, perm.trans perm', best⟩

/-- Nobody else matters. -/
theorem BestHold.congr {run' : Run Float P} (h : BestHold run a b all)
    (first : run'.holder a = run.holder a) (second : run'.holder b = run.holder b) :
    BestHold run' a b all := by
  rwa [BestHold, first, second]

/-- The weaker one of two is not better than the other, also if they are equally good. -/
theorem weaker_cases {f g : Row Float} (singleF : f.Single) (singleG : g.Single) :
    (firstWeaker f g = true ∧ g.gene 0 ≤ f.gene 0) ∨
      (firstWeaker f g = false ∧ f.gene 0 ≤ g.gene 0) := by
  rw [firstWeaker]
  by_cases first : f.gene 0 < g.gene 0
  · rw [if_pos ((Dominance.dominates_iff_lt singleF.size).mpr first)]
    exact .inr ⟨rfl, le_of_lt first⟩
  rw [if_neg (mt (Dominance.dominates_iff_lt singleF.size).mp first)]
  by_cases second : g.gene 0 < f.gene 0
  · rw [if_pos ((Dominance.dominates_iff_lt singleG.size).mpr second)]
    exact .inl ⟨rfl, le_of_lt second⟩
  rw [if_neg (mt (Dominance.dominates_iff_lt singleG.size).mp second)]
  have below := le_of_not_lt singleF.le_self singleG.le_self first
  have above := le_of_not_lt singleG.le_self singleF.le_self second
  cases decide (total g < total f) with
  | true => exact .inl ⟨rfl, below⟩
  | false => exact .inr ⟨rfl, above⟩

/-- A child is turned away, or takes one of the two places. -/
theorem challenge_cases (a b : Nat) (run : Run Float P) (child : Row Float × Row Float) :
    challenge a b run child = run ∨ ∃ i, (i = a ∨ i = b) ∧
      challenge a b run child = run.overwrite [i] #[child.1] #[child.2] := by
  rw [challenge]
  cases run.F with
  | none => exact .inl rfl
  | some F =>
    dsimp only
    have place : (if firstWeaker (F.row a) (F.row b) then a else b) = a ∨
        (if firstWeaker (F.row a) (F.row b) then a else b) = b := by
      split
      · exact .inl rfl
      · exact .inr rfl
    generalize (if firstWeaker (F.row a) (F.row b) = true then a else b) = loser at place ⊢
    split
    · exact .inr ⟨loser, place, rfl⟩
    · exact .inl rfl

theorem challenge_ranked (ranked : run.Ranked box n) (insideA : a < n) (insideB : b < n)
    (single : child.2.Single) : (challenge a b run child).Ranked box n := by
  obtain ⟨F, scored⟩ := ranked.scored
  rw [← ranked.popSize] at insideA insideB
  have improves := challenge_improves scored insideA insideB single
  have scored' : ∃ F', (challenge a b run child).Scored F' := by
    obtain ⟨F', scored', -⟩ := improves.scored scored (by simpa using single)
    exact ⟨F', scored'⟩
  rcases challenge_cases a b run child with same | ⟨i, -, same⟩
  · rwa [same]
  · rw [same] at scored' ⊢
    exact ⟨ranked.bounds, ranked.popSize, (size_writeAt _ _ _).trans ranked.positions, scored'⟩

/-- A child that is not worse than the weaker one of two takes its place. -/
theorem bestHold_taken {F : Rows Float} (ranked : run.Ranked box n) (known : run.F = some F)
    (insideA : a < n) (distinct : b ≠ a) (boxed : box.clip child.1 = child.1)
    (weaker : (F.row b).gene 0 ≤ (F.row a).gene 0) (le : child.2.gene 0 ≤ (F.row a).gene 0)
    (h : BestHold run a b all) :
    BestHold (run.overwrite [a] #[child.1] #[child.2]) a b (child :: all) := by
  obtain ⟨v, w, out, holdsA, holdsB, perm, best⟩ := h
  obtain ⟨F', scored⟩ := ranked.scored
  obtain rfl : F' = F := Option.some.inj (scored.known.symm.trans known)
  have insideX : a < run.X.size := by rwa [ranked.positions]
  have insideF : a < F'.size := by rwa [scored.size, ranked.popSize]
  rw [← ranked.bounds] at boxed
  have holder := holder_overwrite known insideX insideF boxed child.2
  rw [holder_eq known, Option.some_inj] at holdsA holdsB
  refine ⟨child, w, v :: out, ?_, ?_, (perm.trans (.swap w v out)).cons child, ?_⟩
  · rw [holder, if_pos rfl]
  · rw [holder, if_neg distinct, holder_eq known, holdsB]
  · subst holdsA holdsB
    refine List.forall_mem_cons.mpr ⟨⟨le, weaker⟩, fun o ho => ?_⟩
    exact ⟨le_trans le (best o ho).1, (best o ho).2⟩

/-- A child that is worse than the weaker one of two is out. -/
theorem bestHold_rejected {F : Rows Float} (known : run.F = some F)
    (weaker : (F.row b).gene 0 ≤ (F.row a).gene 0) (le : (F.row a).gene 0 ≤ child.2.gene 0)
    (h : BestHold run a b all) : BestHold run a b (child :: all) := by
  obtain ⟨v, w, out, holdsA, holdsB, perm, best⟩ := h
  refine ⟨v, w, child :: out, holdsA, holdsB, ?_, ?_⟩
  · have middle : ([v, w] ++ child :: out).Perm (child :: ([v, w] ++ out)) := List.perm_middle
    exact (perm.cons child).trans middle.symm
  · rw [holder_eq known, Option.some_inj] at holdsA holdsB
    subst holdsA holdsB
    exact List.forall_mem_cons.mpr ⟨⟨le, le_trans weaker le⟩, best⟩

/-- Whatever a challenge leads to, the best hold the places. -/
theorem challenge_bestHold (ranked : run.Ranked box n) (insideA : a < n) (insideB : b < n)
    (distinct : a ≠ b) (single : child.2.Single) (boxed : box.clip child.1 = child.1)
    (h : BestHold run a b all) : BestHold (challenge a b run child) a b (child :: all) := by
  obtain ⟨F, scored⟩ := ranked.scored
  have row {i : Nat} (inside : i < n) : (F.row i).Single := by
    apply scored.single.row
    rwa [scored.size, ranked.popSize]
  -- the weaker one of the two may be the first or the second
  have one {l k : Nat} (insideL : l < n) (distinct : k ≠ l)
      (weaker : (F.row k).gene 0 ≤ (F.row l).gene 0) (h : BestHold run l k all) : BestHold
        (if Dominance.notWorse child.2 (F.row l) then run.overwrite [l] #[child.1] #[child.2]
          else run) l k (child :: all) := by
    by_cases le : child.2.gene 0 ≤ (F.row l).gene 0
    · rw [if_pos ((Dominance.notWorse_single single).mpr le)]
      exact bestHold_taken ranked scored.known insideL distinct boxed weaker le h
    · rw [if_neg (mt (Dominance.notWorse_single single).mp le)]
      have above := (le_total single.le_self (row insideL).le_self).resolve_left le
      exact bestHold_rejected scored.known weaker above h
  rw [challenge, scored.known]
  dsimp only
  rcases weaker_cases (row insideA) (row insideB) with ⟨first, weaker⟩ | ⟨second, weaker⟩
  · rw [if_pos first]
    exact one insideA distinct.symm weaker h
  · have kept : ¬firstWeaker (F.row a) (F.row b) = true := by simp [second]
    rw [if_neg kept]
    exact (one insideB distinct weaker h.symm).symm

/-- Two children challenge their parents in either order. -/
theorem compete_bestHold (ranked : run.Ranked box n) (insideA : a < n) (insideB : b < n)
    (distinct : a ≠ b) (singleC : c.2.Single) (singleD : d.2.Single)
    (boxedC : box.clip c.1 = c.1) (boxedD : box.clip d.1 = d.1) {p q : Row Float × Row Float}
    (first : run.holder a = some p) (second : run.holder b = some q) :
    BestHold (compete run a b c d) a b [p, q, c, d] := by
  have parents : BestHold run a b [p, q] := ⟨p, q, [], first, second, .refl _, nofun⟩
  have both {c d : Row Float × Row Float} (singleC : c.2.Single) (singleD : d.2.Single)
      (boxedC : box.clip c.1 = c.1) (boxedD : box.clip d.1 = d.1) :
      BestHold (challenge a b (challenge a b run c) d) a b [d, c, p, q] := by
    have once := challenge_bestHold ranked insideA insideB distinct singleC boxedC parents
    have ranked' := challenge_ranked ranked insideA insideB singleC
    exact challenge_bestHold ranked' insideA insideB distinct singleD boxedD once
  have parentsLast (c d : Row Float × Row Float) : ([p, q] ++ [c, d]).Perm ([c, d] ++ [p, q]) :=
    List.perm_append_comm
  rw [compete]
  split
  · exact (both singleC singleD boxedC boxedD).perm ((parentsLast c d).trans (.swap d c _))
  · exact (both singleD singleC boxedD boxedC).perm (parentsLast c d)

theorem compete_ranked (ranked : run.Ranked box n) (insideA : a < n) (insideB : b < n)
    (singleC : c.2.Single) (singleD : d.2.Single) : (compete run a b c d).Ranked box n := by
  rw [compete]
  split
  · exact challenge_ranked (challenge_ranked ranked insideA insideB singleC) insideA insideB singleD
  · exact challenge_ranked (challenge_ranked ranked insideA insideB singleD) insideA insideB singleC

/-- Whoever holds a third place is not concerned. -/
theorem holder_compete (ranked : run.Ranked box n) (insideA : a < n) (insideB : b < n)
    (singleC : c.2.Single) (singleD : d.2.Single) (boxedC : box.clip c.1 = c.1)
    (boxedD : box.clip d.1 = d.1) {i : Nat} (first : i ≠ a) (second : i ≠ b) :
    (compete run a b c d).holder i = run.holder i := by
  have one {run : Run Float P} {child : Row Float × Row Float} (ranked : run.Ranked box n)
      (boxed : box.clip child.1 = child.1) :
      (challenge a b run child).holder i = run.holder i := by
    rcases challenge_cases a b run child with same | ⟨l, place, same⟩
    · rw [same]
    obtain ⟨F, scored⟩ := ranked.scored
    have inside : l < n := by rcases place with rfl | rfl <;> assumption
    have other : i ≠ l := by rcases place with rfl | rfl <;> assumption
    rw [← ranked.bounds] at boxed
    rw [same, holder_overwrite scored.known (by rwa [ranked.positions])
      (by rwa [scored.size, ranked.popSize]) boxed, if_neg other]
  rw [compete]
  split
  · exact (one (challenge_ranked ranked insideA insideB singleC) boxedD).trans (one ranked boxedC)
  · exact (one (challenge_ranked ranked insideA insideB singleD) boxedC).trans (one ranked boxedD)

end Family

section Pairs

/-- Both members of a pair. -/
def members (pair : Nat × Nat) : List Nat :=
  [pair.1, pair.2]

/-- The pairs of an order are all of it, but for the last one if the number is odd. -/
theorem flatMap_pairs (order : List Nat) :
    (pairs order).flatMap members = order.take (2 * (order.length / 2)) := by
  induction order using pairs.induct with
  | case1 a b rest ih =>
    have count : 2 * ((rest.length + 1 + 1) / 2) = 2 * (rest.length / 2) + 1 + 1 := by omega
    rw [pairs, List.flatMap_cons, ih, List.length_cons, List.length_cons, count,
      List.take_succ_cons, List.take_succ_cons]
    rfl
  | case2 order short =>
    have few : order.length < 2 := by
      rcases order with _ | ⟨a, _ | ⟨b, rest⟩⟩
      · exact Nat.zero_lt_two
      · exact Nat.one_lt_two
      · exact absurd rfl (short a b rest)
    have none : 2 * (order.length / 2) = 0 := by omega
    rw [none, List.take_zero, pairs]
    · rfl
    · exact short

theorem length_pairs (order : List Nat) : (pairs order).length = order.length / 2 := by
  have count : 2 * (pairs order).length = (order.take (2 * (order.length / 2))).length := by
    rw [← flatMap_pairs]
    simp [members, Nat.mul_comm]
  rw [List.length_take] at count
  omega

/-- Nobody is in two pairs, or twice in one. -/
theorem pairs_apart {order : List Nat} (nodup : order.Nodup) :
    (∀ pair ∈ pairs order, (members pair).Nodup) ∧
      (pairs order).Pairwise fun p q => (members p).Disjoint (members q) := by
  have taken : ((pairs order).flatMap members).Nodup := by
    rw [flatMap_pairs]
    exact nodup.sublist (List.take_sublist _ _)
  exact List.nodup_flatMap.mp taken

end Pairs

section Families

variable {box : Bounds Float} {n : Nat} {run : Run Float P} {families : List (Family Float)}
  {C FC : Rows Float}

/-- Families of a population of `n` who have no places in common. -/
structure Separate (n : Nat) (families : List (Family Float)) : Prop where
  inside : ∀ f ∈ families, f.first < n ∧ f.second < n
  distinct : ∀ f ∈ families, f.first ≠ f.second
  apart : families.Pairwise fun f g => (members f.places).Disjoint (members g.places)

/-- Children with their fitness, which lie in the box. -/
structure Raised (box : Bounds Float) (count : Nat) (C FC : Rows Float) : Prop where
  size : C.size = count
  sizeF : FC.size = count
  single : FC.Single
  boxed : ∀ k < count, box.clip (C.row k) = C.row k

/-- A child with its fitness. -/
def child (C FC : Rows Float) (k : Nat) : Row Float × Row Float :=
  (C.row k, FC.row k)

/-- One family competes: the second part of `entry` tells which children are its own. -/
def contend (C FC : Rows Float) (run : Run Float P) (entry : Family Float × Nat) : Run Float P :=
  compete run entry.1.first entry.1.second (child C FC (2 * entry.2)) (child C FC (2 * entry.2 + 1))

theorem competeAll_eq (families : List (Family Float)) (C FC : Rows Float) (run : Run Float P) :
    competeAll families C FC run = families.zipIdx.foldl (contend C FC) run :=
  rfl

theorem contend_bestHold {count k : Nat} {f : Family Float} (ranked : run.Ranked box n)
    (inside : f.first < n ∧ f.second < n) (distinct : f.first ≠ f.second)
    (raised : Raised box (2 * count) C FC) (below : k < count) :
    (contend C FC run (f, k)).Ranked box n ∧
      (∃ p q, run.holder f.first = some p ∧ run.holder f.second = some q ∧
        BestHold (contend C FC run (f, k)) f.first f.second
          [p, q, child C FC (2 * k), child C FC (2 * k + 1)]) ∧
      ∀ i ∉ members f.places, (contend C FC run (f, k)).holder i = run.holder i := by
  have single {k : Nat} (below : k < 2 * count) : (child C FC k).2.Single :=
    raised.single.row (by rwa [raised.sizeF])
  have boxed {k : Nat} (below : k < 2 * count) : box.clip (child C FC k).1 = (child C FC k).1 :=
    raised.boxed k below
  have first : 2 * k < 2 * count := by omega
  have second : 2 * k + 1 < 2 * count := by omega
  obtain ⟨F, scored⟩ := ranked.scored
  have holdsA := holder_eq scored.known f.first
  have holdsB := holder_eq scored.known f.second
  refine ⟨compete_ranked ranked inside.1 inside.2 (single first) (single second),
    ⟨_, _, holdsA, holdsB, ?_⟩, fun i other => ?_⟩
  · exact compete_bestHold ranked inside.1 inside.2 distinct (single first) (single second)
      (boxed first) (boxed second) holdsA holdsB
  · obtain ⟨otherA, otherB⟩ : i ≠ f.first ∧ i ≠ f.second := by
      simpa [members, Family.places] using other
    exact holder_compete ranked inside.1 inside.2 (single first) (single second) (boxed first)
      (boxed second) otherA otherB

/-- The families from the `i`-th one on compete one after the other, with the children from `2 * i`
on. -/
theorem foldl_contend_bestHold {count i : Nat} (ranked : run.Ranked box n)
    (separate : Separate n families) (raised : Raised box (2 * count) C FC)
    (enough : i + families.length ≤ count) :
    (∀ k f, families[k]? = some f → ∃ p q, run.holder f.first = some p ∧
      run.holder f.second = some q ∧
      BestHold ((families.zipIdx i).foldl (contend C FC) run) f.first f.second
        [p, q, child C FC (2 * (i + k)), child C FC (2 * (i + k) + 1)]) ∧
    ∀ j, (∀ f ∈ families, j ∉ members f.places) →
      ((families.zipIdx i).foldl (contend C FC) run).holder j = run.holder j := by
  induction families generalizing i run with
  | nil => exact ⟨nofun, fun _ _ => rfl⟩
  | cons family rest ih =>
    rw [List.length_cons] at enough
    obtain ⟨apart, apartRest⟩ := List.pairwise_cons.mp separate.apart
    obtain ⟨ranked₁, ⟨p, q, holdsA, holdsB, best⟩, others⟩ := contend_bestHold ranked
      (separate.inside family List.mem_cons_self) (separate.distinct family List.mem_cons_self)
      raised (show i < count by omega)
    have separateRest : Separate n rest :=
      ⟨fun f hf => separate.inside f (List.mem_cons_of_mem _ hf),
        fun f hf => separate.distinct f (List.mem_cons_of_mem _ hf), apartRest⟩
    obtain ⟨later, rests⟩ := ih (i := i + 1) ranked₁ separateRest (by omega)
    rw [List.zipIdx_cons, List.foldl_cons]
    refine ⟨fun k f hf => ?_, fun j absent => ?_⟩
    · cases k with
      | zero =>
        obtain rfl : family = f := Option.some.inj hf
        have settled {j : Nat} (hj : j ∈ members family.places) := rests j fun f hf => apart f hf hj
        exact ⟨p, q, holdsA, holdsB, best.congr (settled (by simp [members, Family.places]))
          (settled (by simp [members, Family.places]))⟩
      | succ k =>
        obtain ⟨p, q, holdsA, holdsB, best⟩ := later k f hf
        have untouched {j : Nat} (hj : j ∈ members f.places) :=
          others j fun here => apart f (List.mem_of_getElem? hf) here hj
        rw [untouched (by simp [members, Family.places])] at holdsA holdsB
        rw [show i + 1 + k = i + (k + 1) by omega] at best
        exact ⟨p, q, holdsA, holdsB, best⟩
    · rw [rests j fun f hf => absent f (List.mem_cons_of_mem _ hf)]
      exact others j (absent family List.mem_cons_self)

/-- One family competes after the other. The places of a family are held by the best of its four,
and nobody else is concerned. -/
theorem competeAll_bestHold (ranked : run.Ranked box n) (separate : Separate n families)
    (raised : Raised box (2 * families.length) C FC) :
    (∀ k f, families[k]? = some f → ∃ p q, run.holder f.first = some p ∧
      run.holder f.second = some q ∧ BestHold (competeAll families C FC run) f.first f.second
        [p, q, child C FC (2 * k), child C FC (2 * k + 1)]) ∧
    ∀ i, (∀ f ∈ families, i ∉ members f.places) →
      (competeAll families C FC run).holder i = run.holder i := by
  have whole := foldl_contend_bestHold (i := 0) ranked separate raised (by omega)
  simp only [Nat.zero_add] at whole
  rw [competeAll_eq]
  exact whole

end Families

section Step

variable {evaluator : Evaluator σ Float P} {s s' : Run Float P × Session σ} {run run' : Run Float P}
  {order : List Nat} {families : List (Family Float)} {answers : List (Member Float P)}

/-- What becomes of a population that is paired off in some order, with one family for each pair.
The answers are the children that were evaluated, in the order of the families: two for each family
that has a new one. -/
structure Selected (run : Run Float P) (order : List Nat) (families : List (Family Float))
    (answers : List (Member Float P)) (run' : Run Float P) : Prop where
  perm : order.Perm (List.range run.popSize)
  paired : families.map Family.places = pairs order
  born : answers.map (·.x) = (families.filter (·.isNew run.X)).flatMap fun f =>
    [run.bounds.clip f.firstChild, run.bounds.clip f.secondChild]
  contested : ∀ k f, (families.filter (·.isNew run.X))[k]? = some f → ∃ p q c d,
    run.holder f.first = some p ∧ run.holder f.second = some q ∧ answers[2 * k]? = some c ∧
      answers[2 * k + 1]? = some d ∧
      BestHold run' f.first f.second [p, q, (c.x, c.f), (d.x, d.f)]
  skipped : ∀ f ∈ families, f.isNew run.X = false →
    run'.holder f.first = run.holder f.first ∧ run'.holder f.second = run.holder f.second
  leftover : ∀ i ∈ order.drop (2 * (run.popSize / 2)), run'.holder i = run.holder i

/-- The families of a population that is paired off are separate. -/
theorem separate_of_pairs {n : Nat} (perm : order.Perm (List.range n))
    (paired : families.map Family.places = pairs order) : Separate n families := by
  have pair {f : Family Float} (hf : f ∈ families) : f.places ∈ pairs order := by
    rw [← paired]
    exact List.mem_map_of_mem hf
  have inside {i : Nat} (hi : i ∈ order) : i < n := List.mem_range.mp (perm.mem_iff.mp hi)
  obtain ⟨once, apart⟩ := pairs_apart (perm.nodup_iff.mpr List.nodup_range)
  refine ⟨fun f hf => ?_, fun f hf => ?_, ?_⟩
  · obtain ⟨first, second⟩ := mem_of_mem_pairs (pair hf)
    exact ⟨inside first, inside second⟩
  · simpa [members, Family.places] using once _ (pair hf)
  · rw [← paired, List.pairwise_map] at apart
    exact apart

theorem Separate.filter {n : Nat} (h : Separate n families) (p : Family Float → Bool) :
    Separate n (families.filter p) :=
  ⟨fun f hf => h.inside f (List.mem_filter.mp hf).1,
    fun f hf => h.distinct f (List.mem_filter.mp hf).1, h.apart.filter p⟩

/-- Who is in no family with a new child is in no family that competes. -/
theorem Separate.absent {n : Nat} (h : Separate n families) (p : Family Float → Bool)
    {f : Family Float} (hf : f ∈ families) (out : p f = false) {i : Nat}
    (member : i ∈ members f.places) : ∀ g ∈ families.filter p, i ∉ members g.places := by
  intro g hg here
  obtain ⟨inG, passes⟩ := List.mem_filter.mp hg
  have other : f ≠ g := by
    rintro rfl
    rw [out] at passes
    cases passes
  have symmetric : Std.Symm fun f g : Family Float =>
      (members f.places).Disjoint (members g.places) := ⟨fun _ _ disjoint _ second first => disjoint first second⟩
  exact h.apart.forall hf inG other member here

/-- Who is left over when a population is paired off is in no family. -/
theorem absent_of_drop {n : Nat} (perm : order.Perm (List.range n))
    (paired : families.map Family.places = pairs order) {i : Nat}
    (left : i ∈ order.drop (2 * (n / 2))) : ∀ f ∈ families, i ∉ members f.places := by
  intro f hf here
  have length : order.length = n := by simpa using perm.length_eq
  have taken : i ∈ order.take (2 * (n / 2)) := by
    rw [← length, ← flatMap_pairs, ← paired, List.mem_flatMap]
    exact ⟨f.places, List.mem_map_of_mem hf, here⟩
  have nodup : order.Nodup := perm.nodup_iff.mpr List.nodup_range
  exact List.disjoint_take_drop nodup (Nat.le_refl _) taken left

/-- Without a new child nothing happens. -/
theorem selected_of_redrawn (perm : order.Perm (List.range run.popSize))
    (paired : families.map Family.places = pairs order)
    (none : families.filter (·.isNew run.X) = []) (drawn : Redrawn run run') :
    Selected run order families ([] : List (Member Float P)) run' := by
  have same (i : Nat) : run'.holder i = run.holder i := by
    obtain ⟨streams, rfl⟩ := drawn
    rfl
  refine ⟨perm, paired, by rw [none]; rfl, fun k f hf => ?_, fun f _ _ => ⟨same _, same _⟩,
    fun i _ => same i⟩
  rw [none] at hf
  cases hf

theorem toList_children (box : Bounds Float) (families : List (Family Float)) :
    (box.clipRows (children families)).toList =
      families.flatMap fun f => [box.clip f.firstChild, box.clip f.secondChild] := by
  simp [Bounds.clipRows, children, List.map_flatMap]

/-- In one step every family that has a new child keeps the best two of its four, and all others
keep their places. -/
theorem step_selected {F : Rows Float} (scalar : evaluator.IsScalar) (scored : s.1.Scored F)
    (positions : s.1.X.size = s.1.popSize) (settings : Settings) :
    Ensures (step settings evaluator) s fun _ s' => ∃ order families answers,
      Selected s.1 order families answers s'.1 ∧ Moves evaluator s answers s' := by
  refine (step_competed settings).mono fun _ s' competed => ?_
  obtain ⟨shuffled, families, drew, paired, outcome⟩ := competed
  have perm : shuffled.toList.Perm (List.range s.1.popSize) := by
    simpa using (perm_of_run_shuffled drew).toList
  have separate := separate_of_pairs perm paired
  rcases outcome with ⟨none, drawn⟩ | ⟨fresh, FC, stored, answers, s₁, s₂, rfl, drawn, assessed,
    known, same⟩
  · exact ⟨_, _, [], selected_of_redrawn perm paired none drawn, moves_of_redrawn drawn⟩
  generalize chosen : families.filter (·.isNew s.1.X) = fresh at assessed same
  have moves : Moves evaluator s answers s' := by
    have competing := competeAll_repositions fresh (s.1.bounds.clipRows (children fresh)) FC s₂.1
    rw [← same] at competing
    have whole := (moves_of_redrawn drawn).trans (assessed.moves.trans (moves_of_repositions competing))
    rwa [List.append_nil, List.nil_append] at whole
  have single := single_of_assessed scalar assessed
  have size := size_children s.1.bounds fresh
  obtain ⟨streams, redrawn⟩ := drawn
  obtain ⟨nObj, tracker, pending, nEval, nonFinite, changed⟩ := assessed.same
  have ranked : s₂.1.Ranked s.1.bounds s.1.popSize := by
    rw [changed, redrawn]
    exact ⟨rfl, rfl, positions, F, scored.known, scored.size, scored.single, scored.fresh⟩
  have holder (i : Nat) : s₂.1.holder i = s.1.holder i := by
    apply holder_congr <;> rw [changed, redrawn]
  have raised : Raised s.1.bounds (2 * fresh.length) (s.1.bounds.clipRows (children fresh)) FC := by
    refine ⟨size, assessed.size.trans size, single, fun k hk => ?_⟩
    have inside : k < (children fresh).size := by rwa [← size, Bounds.size_clipRows] at hk
    rw [row_clipRows _ inside, Bounds.clip_clip]
  obtain ⟨contested, others⟩ := competeAll_bestHold ranked (chosen ▸ separate.filter _) raised
  rw [← same] at contested others
  have bounds : s₁.1.bounds = s.1.bounds := by rw [redrawn]
  refine ⟨_, _, answers,
    ⟨perm, paired, ?_, fun k f hf => ?_, fun f hf out => ?_, fun i left => ?_⟩, moves⟩
  · rw [assessed.positions, bounds, Bounds.clipRows_clipRows, chosen, toList_children]
  · rw [chosen] at hf
    have below : k < fresh.length := (List.getElem?_eq_some_iff.mp hf).1
    obtain ⟨p, q, holdsA, holdsB, best⟩ := contested k f hf
    obtain ⟨c, first, cx, cf⟩ := assessed.answer (show 2 * k < _ by rw [raised.size]; omega)
    obtain ⟨d, second, dx, df⟩ := assessed.answer (show 2 * k + 1 < _ by rw [raised.size]; omega)
    rw [holder] at holdsA holdsB
    rw [bounds, raised.boxed _ (by omega)] at cx dx
    rw [child, child, ← cx, ← cf, ← dx, ← df] at best
    exact ⟨p, q, c, d, holdsA, holdsB, first, second, best⟩
  · have absent {i : Nat} (member : i ∈ members f.places) := chosen ▸ separate.absent _ hf out member
    rw [others _ (absent (by simp [members, Family.places])),
      others _ (absent (by simp [members, Family.places]))]
    exact ⟨holder _, holder _⟩
  · rw [others i fun f hf => absent_of_drop perm paired left f ?_, holder]
    rw [← chosen] at hf
    exact (List.mem_filter.mp hf).1

end Step

end Genetic

end BoxSearch
