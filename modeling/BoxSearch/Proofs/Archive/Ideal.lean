import BoxSearch.Proofs.Archive.Places
import BoxSearch.Proofs.Archive.Remembered
import Mathlib.Algebra.Order.BigOperators.Group.Finset

/-!
A front with room for twice as many members as there are objectives keeps the ideal point.

Every objective has one first and one last row. So if there are more rows than twice the number of
objectives, some row lies between others in all of them and has a finite distance. The most crowded
one then has a finite distance, too, and is not extreme. So nobody with a least value is given up,
and a point that is turned down or dominated leaves values behind that are no larger.
-/

namespace BoxSearch

open Scalar OrderedScalar Dominance

namespace Crowding

variable {α : Type} [Scalar α] [SharedScalar α] {values : Array α} {F : Rows α}

theorem first_unique {i j : Nat} (hi : i < values.size) (hj : j < values.size)
    (firstI : First values i) (firstJ : First values j) : i = j := by
  by_contra different
  exact before_asymm (firstI j hj (Ne.symm different)) (firstJ i hi different)

theorem last_unique {i j : Nat} (hi : i < values.size) (hj : j < values.size)
    (lastI : Last values i) (lastJ : Last values j) : i = j := by
  by_contra different
  exact before_asymm (lastI j hj (Ne.symm different)) (lastJ i hi different)

/-- Two rows at most are extreme in a column. -/
theorem card_extreme_le (values : Array α) :
    ((Finset.range values.size).filter (Extreme values)).card ≤ 2 := by
  have first : ((Finset.range values.size).filter (First values)).card ≤ 1 := by
    refine Finset.card_le_one.mpr fun i hi j hj => ?_
    simp only [Finset.mem_filter, Finset.mem_range] at hi hj
    exact first_unique hi.1 hj.1 hi.2 hj.2
  have last : ((Finset.range values.size).filter (Last values)).card ≤ 1 := by
    refine Finset.card_le_one.mpr fun i hi j hj => ?_
    simp only [Finset.mem_filter, Finset.mem_range] at hi hj
    exact last_unique hi.1 hj.1 hi.2 hj.2
  calc ((Finset.range values.size).filter (Extreme values)).card
      = ((Finset.range values.size).filter (First values) ∪
          (Finset.range values.size).filter (Last values)).card := by
        rw [← Finset.filter_or]
        rfl
    _ ≤ 1 + 1 := (Finset.card_union_le _ _).trans (Nat.add_le_add first last)

/-- Of more rows than that, one is extreme in no column. -/
theorem exists_inner {w : Nat} (many : 2 * w < F.size) :
    ∃ j < F.size, ¬∃ m < w, Extreme (F.column m) j := by
  by_contra all
  have covered : Finset.range F.size ⊆ (Finset.range w).biUnion fun m =>
      (Finset.range (F.column m).size).filter (Extreme (F.column m)) := by
    intro j hj
    have inside := Finset.mem_range.mp hj
    by_contra missing
    refine all ⟨j, inside, fun ⟨m, hm, extreme⟩ => missing ?_⟩
    have rows : (F.column m).size = F.size := by simp [Rows.column]
    rw [Finset.mem_biUnion]
    refine ⟨m, Finset.mem_range.mpr hm, Finset.mem_filter.mpr ⟨?_, extreme⟩⟩
    rwa [rows]
  have few : ((Finset.range w).biUnion fun m =>
      (Finset.range (F.column m).size).filter (Extreme (F.column m))).card ≤ w * 2 := by
    have bound := Finset.card_biUnion_le_card_mul (Finset.range w)
      (fun m => (Finset.range (F.column m).size).filter (Extreme (F.column m))) 2
      fun m _ => card_extreme_le (F.column m)
    rwa [Finset.card_range] at bound
  have count := Finset.card_le_card covered
  rw [Finset.card_range] at count
  omega

/-- Of more rows than that, the most crowded one is extreme in no column. -/
theorem MostCrowded.inner {w i : Nat} (numeric : ∀ f ∈ F, f.Numeric) (many : 2 * w < F.size)
    (h : MostCrowded (distances w F) i) : ∀ m < w, ¬Extreme (F.column m) i := by
  intro m hm extreme
  have size := (comparable_distances w F).size
  have inside : i < F.size := size ▸ h.inside
  obtain ⟨j, hj, inner⟩ := exists_inner many
  have finite := (distances_inner (Nat.zero_lt_of_lt hm) numeric hj inner).1
  have least := h.least j (size.symm ▸ hj)
  rw [distances_extreme numeric inside ⟨m, hm, extreme⟩] at least
  exact not_le_of_lt (isFinite_iff_between.mp finite).2 least

/-- The first row of a column has a least value. -/
theorem exists_first (number : ∀ i, values.getD i zero ≤ values.getD i zero)
    (nonempty : 0 < values.size) :
    ∃ k < values.size, First values k ∧ ∀ j < values.size, values.getD k zero ≤ values.getD j zero := by
  have filled : 0 < (ranking values).length := by simpa using nonempty
  have first := (first_iff number filled).mpr rfl
  refine ⟨_, ranking_lt filled, first, fun j hj => ?_⟩
  by_cases same : j = (ranking values)[0]
  · rw [same]
    exact number _
  · rcases first j hj same with below | ⟨equal, -⟩
    · exact Scalar.le_of_lt below
    · exact (beq_iff.mp equal).1

end Crowding

namespace Front

open Crowding

variable {P : Type} {nVar nObj limit : Nat} {history : List (Member Float P)} {s : Front Float P}
  {n p : Member Float P}

/-- For every point of a history and every objective there is a member whose value is no larger. -/
def Ideal (nObj : Nat) (history : List (Member Float P)) (s : Front Float P) : Prop :=
  ∀ q ∈ history, ∀ m < nObj, ∃ n ∈ s.members, n.f.gene m ≤ q.f.gene m

theorem le_of_bars (size : n.f.size = nObj) (h : bars n p.x p.f = true) {m : Nat} (hm : m < nObj) :
    n.f.gene m ≤ p.f.gene m := by
  rw [bars, Bool.or_eq_true, Bool.and_eq_true] at h
  rcases h with dominated | ⟨same, -⟩
  · exact (dominates_iff.mp dominated).1 m (size ▸ hm)
  · exact (beq_iff.mp ((Row.same_iff.mp same).2 m (size ▸ hm))).1

/-- A point that enters has no larger values than the members that it drives out. -/
theorem ideal_grown (ideal : Ideal nObj history s) (numeric : p.Numeric nVar nObj) :
    Ideal nObj (history ++ [p]) (s.grown p) := by
  have new : p ∈ (s.grown p).members := Array.mem_push_self
  intro q hq m hm
  rcases List.mem_append.mp hq with old | latest
  · obtain ⟨n, hn, below⟩ := ideal q old m hm
    by_cases leaves : dominates p.f n.f = true
    · have step := (dominates_iff.mp leaves).1 m (numeric.sizeF ▸ hm)
      exact ⟨p, new, OrderedScalar.le_trans step below⟩
    · refine ⟨n, Array.mem_push_of_mem p (Array.mem_filter.mpr ⟨hn, ?_⟩), below⟩
      simpa using leaves
  · obtain rfl := List.mem_singleton.mp latest
    exact ⟨q, new, isNaN_eq_false_iff.mp (numeric.numericF m (numeric.sizeF ▸ hm))⟩

/-- A member that is extreme in no objective can be spared. -/
theorem ideal_eraseIdx (ideal : Ideal nObj history s) (numeric : ∀ f ∈ s.F, f.Numeric) {i : Nat}
    (hi : i < s.members.size) (inner : ∀ m < nObj, ¬Extreme (s.F.column m) i) :
    Ideal nObj history { s with members := s.members.eraseIdx i } := by
  have entry {m k : Nat} (hk : k < s.members.size) :
      (s.F.column m).getD k zero = s.members[k].f.gene m := by
    simp [F, Rows.column, hk]
  have rows (m : Nat) : (s.F.column m).size = s.members.size := by simp [F, Rows.column]
  intro q hq m hm
  obtain ⟨n, hn, below⟩ := ideal q hq m hm
  obtain ⟨j, hj, rfl⟩ := Array.getElem_of_mem hn
  obtain ⟨k, hk, first, least⟩ := exists_first (column_le_self numeric m)
    (by rw [rows]; exact Nat.zero_lt_of_lt hj)
  rw [rows] at hk
  have other : k ≠ i := by
    rintro rfl
    exact inner m hm (.inl first)
  have least := least j (by rwa [rows])
  rw [entry hk, entry hj] at least
  refine ⟨s.members[k], ?_, OrderedScalar.le_trans least below⟩
  exact Array.mem_eraseIdx_iff_getElem.mpr ⟨k, hk, other, rfl⟩

/-- One more point leaves the ideal point in place, and gives up nothing extreme. -/
theorem ideal_take (room : 2 * nObj ≤ limit) (within : Within limit nVar nObj history s)
    (ideal : Ideal nObj history s) (numeric : ∀ q ∈ history ++ [p], q.Numeric nVar nObj) :
    Ideal nObj (history ++ [p]) (s.take p) ∧
      ∀ loss, s.loss? p = some loss → ∀ m < nObj, ¬Extreme (loss.F.column m) loss.place := by
  have here : p.Numeric nVar nObj := numeric p (by simp)
  have grown := ideal_grown ideal here
  rcases loss_cases s p with
    ⟨same, barred, none⟩ | ⟨-, ⟨same, none⟩ | ⟨i, hi, same, lost, excess, crowded⟩⟩
  · rw [same, none]
    refine ⟨fun q hq m hm => ?_, nofun⟩
    rcases List.mem_append.mp hq with old | latest
    · exact ideal q old m hm
    · obtain rfl := List.mem_singleton.mp latest
      obtain ⟨j, hj, bar⟩ := Array.any_eq_true.mp barred
      have member : s.members[j] ∈ s.members := Array.getElem_mem hj
      have size := (numeric _ (List.mem_append_left _ (within.offered _ member))).sizeF
      exact ⟨_, member, le_of_bars size bar hm⟩
  · rw [same, none]
    exact ⟨grown, nofun⟩
  · have numbers : ∀ f ∈ (s.grown p).F, f.Numeric := by
      intro f hf
      obtain ⟨n, hn, rfl⟩ := Array.mem_map.mp hf
      rcases Array.mem_push.mp hn with old | rfl
      · have offered := within.offered n (Array.mem_filter.mp old).1
        exact (numeric n (List.mem_append_left _ offered)).numericF
      · exact here.numericF
    have many : 2 * nObj < (s.grown p).F.size := by
      have excess := excess limit within.limited
      simp only [F, Array.size_map]
      omega
    rw [within.objectives] at crowded
    have inner := crowded.inner numbers many
    rw [same, lost]
    refine ⟨ideal_eraseIdx grown numbers hi inner, ?_⟩
    rintro _ ⟨⟩
    exact inner

/-- Several points do the same. -/
theorem ideal_foldl (positive : 1 ≤ limit) (room : 2 * nObj ≤ limit)
    {points : List (Member Float P)} (within : Within limit nVar nObj history s)
    (ideal : Ideal nObj history s) (numeric : ∀ q ∈ history ++ points, q.Numeric nVar nObj) :
    Ideal nObj (history ++ points) (points.foldl take s) ∧
      ∀ loss ∈ s.losses points, ∀ m < nObj, ¬Extreme (loss.F.column m) loss.place := by
  induction points generalizing history s with
  | nil => simpa [losses] using ideal
  | cons p points ih =>
    rw [List.append_cons] at numeric ⊢
    obtain ⟨ideal', first⟩ :=
      ideal_take room within ideal fun q hq => numeric q (List.mem_append_left _ hq)
    obtain ⟨ideal'', later⟩ := ih (within_offer within positive p) ideal' numeric
    refine ⟨ideal'', fun loss hloss => ?_⟩
    rcases List.mem_append.mp hloss with here | rest
    · exact first loss (Option.mem_toList.mp here)
    · exact later loss rest

theorem ideal_run (positive : 1 ≤ limit) (room : 2 * nObj ≤ limit)
    (within : Within limit nVar nObj history s) (ideal : Ideal nObj history s)
    (a : Access Float P) (numeric : ∀ q ∈ history ++ a.points, q.Numeric nVar nObj) :
    Ideal nObj (history ++ a.points) (a.run s) ∧
      ∀ loss ∈ s.losses a.points, ∀ m < nObj, ¬Extreme (loss.F.column m) loss.place := by
  rcases a.run_cases s with handed | ⟨none, read⟩
  · rw [handed]
    exact ideal_foldl positive room within ideal numeric
  · rw [none, read, List.append_nil]
    exact ⟨ideal, by simp [losses]⟩

theorem ideal_foldl_run (positive : 1 ≤ limit) (room : 2 * nObj ≤ limit)
    (accesses : List (Access Float P)) (within : Within limit nVar nObj history s)
    (ideal : Ideal nObj history s)
    (numeric : ∀ q ∈ history ++ handed accesses, q.Numeric nVar nObj) :
    Ideal nObj (history ++ handed accesses) (accesses.foldl Access.run s) ∧
      ∀ loss ∈ s.lossesOf accesses, ∀ m < nObj, ¬Extreme (loss.F.column m) loss.place := by
  induction accesses generalizing history s with
  | nil => simpa [lossesOf, handed] using ideal
  | cons a rest ih =>
    rw [handed, List.flatMap_cons, ← List.append_assoc] at numeric ⊢
    obtain ⟨ideal', first⟩ :=
      ideal_run positive room within ideal a fun q hq => numeric q (List.mem_append_left _ hq)
    obtain ⟨ideal'', later⟩ := ih (within_access positive within) ideal' numeric
    refine ⟨ideal'', fun loss hloss => ?_⟩
    rcases List.mem_append.mp hloss with here | rest
    · exact first loss here
    · exact later loss rest

/-- The least value of an objective among several points. -/
def Least (m : Nat) (points : List (Member Float P)) (v : Float) : Prop :=
  (∃ p ∈ points, p.f.gene m = v) ∧ ∀ p ∈ points, v ≤ p.f.gene m

/-- The least value of every objective among the members is the least one among all points that were
ever offered, if the limit allows twice as many members as there are objectives. What was given up
on the way was neither first nor last in any objective. -/
theorem limited_front_keeps_ideal (nVar nObj limit : Nat) (objectives : 1 ≤ nObj)
    (room : 2 * nObj ≤ limit) (accesses : List (Access Float P)) (nonempty : handed accesses ≠ [])
    (numeric : ∀ p ∈ handed accesses, p.Numeric nVar nObj) :
    let front := accesses.foldl Access.run (empty nVar nObj (some limit))
    (∀ m < nObj, ∃ v, Least m front.members.toList v ∧ Least m (handed accesses) v) ∧
      ∀ loss ∈ (empty nVar nObj (some limit)).lossesOf accesses, ∀ m < nObj,
        ¬Extreme (loss.F.column m) loss.place := by
  intro front
  have positive : 1 ≤ limit := by omega
  have start := within_empty (α := Float) (P := P) limit nVar nObj
  have within : Within limit nVar nObj (handed accesses) front :=
    within_accesses positive accesses start
  obtain ⟨ideal, inner⟩ := ideal_foldl_run positive room accesses start nofun numeric
  refine ⟨fun m hm => ?_, inner⟩
  have numbers : ∀ f ∈ front.F, f.Numeric := by
    intro f hf
    obtain ⟨n, hn, rfl⟩ := Array.mem_map.mp hf
    exact (numeric n (within.offered n hn)).numericF
  have rows : (front.F.column m).size = front.members.size := by simp [F, Rows.column]
  have entry {k : Nat} (hk : k < front.members.size) :
      (front.F.column m).getD k zero = front.members[k].f.gene m := by
    simp [F, Rows.column, hk]
  obtain ⟨k, hk, -, least⟩ := exists_first (column_le_self numbers m)
    (by rw [rows]; exact within.nonempty nonempty)
  rw [rows] at hk
  have member : front.members[k] ∈ front.members := Array.getElem_mem hk
  have lowest : ∀ n ∈ front.members, front.members[k].f.gene m ≤ n.f.gene m := by
    intro n hn
    obtain ⟨j, hj, rfl⟩ := Array.getElem_of_mem hn
    have least := least j (by rwa [rows])
    rwa [entry hk, entry hj] at least
  refine ⟨front.members[k].f.gene m, ⟨⟨_, Array.mem_toList_iff.mpr member, rfl⟩, ?_⟩,
    ⟨⟨_, within.offered _ member, rfl⟩, ?_⟩⟩
  · intro n hn
    exact lowest n (Array.mem_toList_iff.mp hn)
  · intro q hq
    obtain ⟨n, hn, below⟩ := ideal q hq m hm
    exact OrderedScalar.le_trans (lowest n hn) below

/-- Six points that do not dominate each other in a front with room for four. Two of them are equal in
fitness, and two have an infinite value. -/
theorem limited_front_keeps_ideal_infinite :
    let accesses : List (Access Float Nat) :=
      [.offer (.one #[0.0] #[0.0, infinity] none), .crowding,
        .offer (.many #[#[1.0], #[2.0], #[3.0], #[4.0]]
          #[#[4.0, 4.0], #[4.0, 4.0], #[infinity, 0.0], #[3.0, 5.0]] none),
        .tournament 0 1, .offer (.one #[5.0] #[5.0, 3.0] none)]
    let front := accesses.foldl Access.run (empty 1 2 (some 4))
    (∀ p ∈ handed accesses, p.Numeric 1 2) ∧ handed accesses ≠ [] ∧
      (∃ v, Least 0 front.members.toList v ∧ v ≤ 0.0) ∧
      ∃ v, Least 1 front.members.toList v ∧ v ≤ 0.0 := by
  intro accesses front
  have numeric : ∀ p ∈ handed accesses, p.Numeric 1 2 := by decide +kernel
  have nonempty : handed accesses ≠ [] := by
    simp [accesses, handed, Access.points, Call.points]
  have ideal := (limited_front_keeps_ideal 1 2 4 (by decide) (by decide) accesses nonempty
    numeric).1
  have zeros : (∃ p ∈ handed accesses, p.f.gene 0 = 0.0) ∧
      ∃ p ∈ handed accesses, p.f.gene 1 = 0.0 := by decide +kernel
  refine ⟨numeric, nonempty, ?_, ?_⟩
  · obtain ⟨v, members, -, least⟩ := ideal 0 (by decide)
    obtain ⟨p, hp, zero⟩ := zeros.1
    exact ⟨v, members, zero ▸ least p hp⟩
  · obtain ⟨v, members, -, least⟩ := ideal 1 (by decide)
    obtain ⟨p, hp, zero⟩ := zeros.2
    exact ⟨v, members, zero ▸ least p hp⟩

end Front

end BoxSearch
