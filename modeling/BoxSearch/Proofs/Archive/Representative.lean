import BoxSearch.Proofs.Archive.Lasting
import BoxSearch.Proofs.Scalar.Value

/-!
What becomes of the representative of a front.

The representative is the member whose objectives have the smallest sum. A point that makes it leave
by dominating it has a smaller sum yet, so that offers only improve on the representative. The
exception is a front that is full. It gives up its most crowded member, and that may be the
representative, since crowding is about distances and not about sums.

Sums are compared as rational numbers. What the front compares are sums with rounding, so the
theorems ask for vectors that can be added up without.
-/

namespace BoxSearch

open Scalar OrderedScalar Dominance

namespace Row

/-- The sum of the numbers that the entries stand for. -/
def sum (f : Row Float) : ℚ :=
  ((List.range f.size).map fun j => Binary.value (f.gene j)).sum

/-- Finite entries, as many as there are objectives, that can be added up without rounding. -/
structure Exact (w : Nat) (f : Row Float) : Prop where
  size : f.size = w
  finite : ∀ j < f.size, isFinite (f.gene j) = true
  finite_total : isFinite (total f) = true
  value_total : Binary.value (total f) = f.sum

variable {w : Nat} {f g : Row Float}

theorem sum_le_of_total_le (hf : f.Exact w) (hg : g.Exact w) (h : total f ≤ total g) :
    f.sum ≤ g.sum := by
  rw [← hf.value_total, ← hg.value_total]
  exact Binary.value_le_value hf.finite_total hg.finite_total h

theorem sum_le_of_dominates (hf : f.Exact w) (hg : g.Exact w) (h : dominates f g = true) :
    f.sum ≤ g.sum := by
  have below := (dominates_iff.mp h).1
  have size : g.size = f.size := hg.size.trans hf.size.symm
  rw [sum, sum, size]
  apply List.sum_le_sum
  intro j hj
  have inside := List.mem_range.mp hj
  exact Binary.value_le_value (hf.finite j inside) (hg.finite j (by rwa [size])) (below j inside)

/-- Finite numbers are ranked as they are. -/
theorem Exact.map_ranked (h : f.Exact w) : f.map Fitness.ranked = f := by
  apply Array.ext (Array.size_map)
  intro j _ inside
  have entry : f.gene j = f[j] := by simp [gene, inside]
  obtain ⟨above, below⟩ := isFinite_iff_between.mp (entry ▸ h.finite j inside)
  have number : isNaN f[j] = false := isNaN_eq_false_iff.mpr (le_self_of_le (le_of_lt below)).1
  have lowest : (f[j] == -(infinity : Float)) = false := by
    rw [← Bool.not_eq_true, beq_iff]
    exact fun same => not_le_of_lt above same.1
  rw [Array.getElem_map, Fitness.ranked, Fitness.unranked, number, lowest]
  rfl

end Row

namespace Scalar

variable {α : Type} [Scalar α] [OrderedScalar α]

/-- Of numbers the smallest one is found. -/
theorem argMin?_le {xs : Array α} (number : ∀ i < xs.size, isNaN (xs.getD i zero) = false) {i : Nat}
    (h : argMin? xs = some i) : ∀ j < xs.size, xs.getD i zero ≤ xs.getD j zero := by
  have upTo (n : Nat) (hn : n ≤ xs.size) :
      ((List.range n).foldl (leastStep xs) none).elim (n = 0) fun b =>
        b < n ∧ ∀ j < n, xs.getD b zero ≤ xs.getD j zero := by
    induction n with
    | zero => rfl
    | succ n ih =>
      specialize ih (by omega)
      have last := number n (by omega)
      have self := isNaN_eq_false_iff.mp last
      rw [List.range_succ, List.foldl_append, List.foldl_cons, List.foldl_nil]
      cases before : (List.range n).foldl (leastStep xs) none with
      | none =>
        simp only [before, Option.elim_none] at ih
        subst ih
        exact ⟨Nat.zero_lt_one, fun j hj => by rwa [Nat.lt_one_iff.mp hj]⟩
      | some b =>
        simp only [before, Option.elim_some] at ih
        obtain ⟨inside, least⟩ := ih
        have number_b := number b (by omega)
        simp only [leastStep, number_b, last, Bool.false_or, decide_eq_true_eq, Bool.false_eq_true,
          if_false]
        by_cases better : xs.getD n zero < xs.getD b zero
        · rw [if_pos better]
          refine ⟨Nat.lt_succ_self n, fun j hj => ?_⟩
          rcases Nat.lt_succ_iff_lt_or_eq.mp hj with earlier | rfl
          · exact le_trans (le_of_lt better) (least j earlier)
          · exact self
        · rw [if_neg better]
          refine ⟨by omega, fun j hj => ?_⟩
          rcases Nat.lt_succ_iff_lt_or_eq.mp hj with earlier | rfl
          · exact least j earlier
          · exact le_of_not_lt self (isNaN_eq_false_iff.mp number_b) better
  have found := upTo xs.size (Nat.le_refl _)
  rw [← argMin?_eq, h] at found
  exact found.2

end Scalar

namespace Front

variable {P : Type} {s : Front Float P} {r m : Member Float P} {w : Nat}

/-- The members can be added up without rounding, and there are no more of them than the limit
allows. -/
structure Tidy (w : Nat) (s : Front Float P) : Prop where
  roomy : s.Roomy
  fits : ∀ limit, s.limit = some limit → s.size ≤ limit
  exact : ∀ m ∈ s.members, m.f.Exact w

/-- The front after one more point. -/
def take (s : Front Float P) (m : Member Float P) : Front Float P :=
  (s.offer m.x m.f m.product).front

/-- A front of two or more members is full, and the point makes it give up its representative. -/
def Forfeits (s : Front Float P) (m : Member Float P) : Prop :=
  ∃ limit r i, s.limit = some limit ∧ 2 ≤ limit ∧ s.size = limit ∧ s.representative = .ok r ∧
    s.members[i]? = some r ∧ (s.offer m.x m.f m.product).dropped = some i

/-- The representative has the smallest sum. -/
theorem representative_least (exact : ∀ m ∈ s.members, m.f.Exact w)
    (h : s.representative = .ok r) : r ∈ s.members ∧ ∀ m ∈ s.members, r.f.sum ≤ m.f.sum := by
  rw [representative] at h
  cases least : argMin? (s.F.map total) with
  | none =>
    rw [least] at h
    cases h
  | some i =>
    have inside : i < s.members.size := by simpa [F] using argMin?_lt least
    have here : s.members[i] = r := by
      simp only [least, Option.bind_some, Array.getElem?_eq_getElem inside] at h
      exact Except.ok.inj h
    have entry (j : Nat) (hj : j < s.members.size) :
        (s.F.map total).getD j zero = total s.members[j].f := by
      simp [F, hj]
    have number : ∀ j < (s.F.map total).size, isNaN ((s.F.map total).getD j zero) = false := by
      intro j hj
      have hj : j < s.members.size := by simpa [F] using hj
      rw [entry j hj, isNaN_eq_false_iff]
      exact le_self_of_isFinite (exact _ (Array.getElem_mem hj)).finite_total
    have member : r ∈ s.members := here ▸ Array.getElem_mem inside
    refine ⟨member, fun m hm => ?_⟩
    obtain ⟨j, hj, rfl⟩ := Array.getElem_of_mem hm
    have below := argMin?_le number least j (by simpa [F] using hj)
    rw [entry i inside, entry j hj, here] at below
    exact Row.sum_le_of_total_le (exact r member) (exact _ hm) below

theorem exists_representative_le (exact : ∀ m ∈ s.members, m.f.Exact w) (hm : m ∈ s.members) :
    ∃ r, s.representative = .ok r ∧ r.f.sum ≤ m.f.sum := by
  obtain ⟨i, hi, -⟩ := Array.getElem_of_mem hm
  obtain ⟨r, h⟩ := exists_representative (Nat.zero_lt_of_lt hi)
  exact ⟨r, h, (representative_least exact h).2 m hm⟩

/-- Of two members the newer one counts as the most crowded. -/
theorem mostCrowded?_pair (two : s.members.size = 2) (fresh : s.crowding = none) :
    s.mostCrowded? = some 1 := by
  have infinite : s.distances = #[infinity, infinity] := by
    have size : s.F.size = 2 := by simp [F, two]
    simp [distances, fresh, Crowding.distances, size, Array.map_const']
    rfl
  rw [mostCrowded?, infinite]
  decide +kernel

/-- The members that stay when a point enters. -/
def undominated (s : Front Float P) (m : Member Float P) : Array (Member Float P) :=
  s.members.filter fun n => !dominates m.f n.f

/-- What an offer can do. It changes nothing, or the point joins the members that it does not
dominate. If there are too many of them then the point dominates none, and one has to go. -/
theorem take_cases (tidy : s.Tidy w) (m : Member Float P) :
    s.take m = s ∨
    ((s.take m).members = (s.undominated m).push m ∧
      ∀ limit, s.limit = some limit → (s.take m).size ≤ limit) ∨
    ∃ limit i, s.limit = some limit ∧ s.size = limit ∧ i < limit + 1 ∧
      (s.size = 1 → i = 1) ∧ (s.offer m.x m.f m.product).dropped = some i ∧
      ∃ hi, (s.take m).members = (s.members.push m).eraseIdx i hi := by
  by_cases barred : s.members.any (bars · m.x m.f) = true
  · left
    rw [take, offer, if_pos barred]
  right
  let grown : Front Float P := { s with members := (s.undominated m).push m, crowding := none }
  have outcome : s.offer m.x m.f m.product = ⟨grown.truncate.1, true, grown.truncate.2⟩ := by
    rw [offer, if_neg barred]
    rfl
  cases limited : s.limit with
  | none =>
    left
    have same : grown.truncate = (grown, none) := by simp [truncate, grown, limited]
    rw [take, outcome, same]
    exact ⟨rfl, fun _ some => by cases some⟩
  | some limit =>
    rcases truncate_cases (s := grown) limited rfl with
      ⟨small, same⟩ | ⟨excess, i, inside, crowded, less⟩
    · left
      rw [take, outcome, same]
      refine ⟨rfl, fun _ same => ?_⟩
      cases same
      exact small
    · right
      have fits : s.members.size ≤ limit := tidy.fits limit limited
      have fewer : (s.undominated m).size ≤ s.members.size := Array.size_filter_le ..
      have size : grown.members.size = (s.undominated m).size + 1 := Array.size_push ..
      change limit < grown.members.size at excess
      change i < grown.members.size at inside
      have whole : (s.undominated m).size = s.members.size := by omega
      have all : s.undominated m = s.members :=
        Array.filter_eq_self.mpr (Array.filter_size_eq_size.mp whole)
      have members : grown.members = s.members.push m := by
        change (s.undominated m).push m = _
        rw [all]
      have full : s.members.size = limit := by omega
      refine ⟨limit, i, rfl, full, by omega, fun one => ?_, by rw [outcome, less], ?_⟩
      · have one : s.members.size = 1 := one
        have two : grown.members.size = 2 := by rw [members, Array.size_push, one]
        rw [mostCrowded?_pair two rfl] at crowded
        exact (Option.some.inj crowded).symm
      · have inside' : i < (s.members.push m).size := by rwa [← members]
        refine ⟨inside', ?_⟩
        rw [take, outcome, less]
        simp only [members]

theorem tidy_take (tidy : s.Tidy w) (exact : m.f.Exact w) : (s.take m).Tidy w where
  roomy limit limited := tidy.roomy limit ((limit_offer _ _ _ _).symm.trans limited)
  fits limit limited := by
    rw [take, limit_offer] at limited
    rcases take_cases tidy m with same | ⟨-, fits⟩ | ⟨_, i, limited', full, -, -, -, hi, less⟩
    · rw [same]
      exact tidy.fits limit limited
    · exact fits limit limited
    · rw [limited] at limited'
      cases limited'
      rw [size, less, Array.size_eraseIdx, Array.size_push, ← full]
      exact Nat.le_refl _
  exact n hn := by
    rcases mem_offer hn with old | rfl
    · exact tidy.exact n old
    · exact exact

/-- An offer makes the representative no worse, unless it makes a full front give it up. -/
theorem representative_take (tidy : s.Tidy w) (exact : m.f.Exact w)
    (h : s.representative = .ok r) :
    (∃ r', (s.take m).representative = .ok r' ∧ r'.f.sum ≤ r.f.sum) ∨ s.Forfeits m := by
  have exact' := (tidy_take tidy exact).exact
  have member := (representative_least tidy.exact h).1
  have better {n : Member Float P} (hn : n ∈ (s.take m).members) (le : n.f.sum ≤ r.f.sum) :
      ∃ r', (s.take m).representative = .ok r' ∧ r'.f.sum ≤ r.f.sum := by
    obtain ⟨r', chosen, least⟩ := exists_representative_le exact' hn
    exact ⟨r', chosen, least.trans le⟩
  rcases take_cases tidy m with
    same | ⟨grown, -⟩ | ⟨limit, i, limited, full, below, newest, dropped, hi, less⟩
  · exact .inl ⟨r, by rw [same, h], le_rfl⟩
  · left
    by_cases leaves : dominates m.f r.f = true
    · exact better (grown ▸ Array.mem_push_self)
        (Row.sum_le_of_dominates exact (tidy.exact r member) leaves)
    · refine better (n := r) ?_ le_rfl
      rw [grown]
      exact Array.mem_push_of_mem m (Array.mem_filter.mpr ⟨member, by simpa using leaves⟩)
  · obtain ⟨j, hj, here⟩ := Array.getElem_of_mem member
    by_cases same : i = j
    · -- the representative has to go, and a front of one member would have dropped the newer one
      right
      subst same
      refine ⟨limit, r, i, limited, ?_, full, h, by rw [Array.getElem?_eq_getElem hj, here], dropped⟩
      have room := tidy.roomy limit limited
      have one := newest
      unfold size at full one
      omega
    · left
      refine better (n := r) ?_ le_rfl
      rw [less, Array.mem_eraseIdx_iff_getElem]
      have hj' : j < (s.members.push m).size := by rw [Array.size_push]; omega
      exact ⟨j, hj', Ne.symm same, by rw [Array.getElem_push_lt hj, here]⟩

/-- The same for several offers: the representative gets no worse, unless one of them makes a full
front give up the representative that it has by then. -/
theorem representative_foldl {points : List (Member Float P)} (tidy : s.Tidy w)
    (exact : ∀ m ∈ points, m.f.Exact w) (h : s.representative = .ok r) :
    (∃ r', (points.foldl take s).representative = .ok r' ∧ r'.f.sum ≤ r.f.sum) ∨
      ∃ before m after, points = before ++ m :: after ∧ (before.foldl take s).Forfeits m := by
  induction points generalizing s r with
  | nil => exact .inl ⟨r, h, le_rfl⟩
  | cons m points ih =>
    have exactFirst := exact m List.mem_cons_self
    rcases representative_take tidy exactFirst h with ⟨r₁, chosen, least⟩ | forfeits
    · have exactRest := fun n hn => exact n (List.mem_cons_of_mem _ hn)
      rcases ih (tidy_take tidy exactFirst) exactRest chosen with
        ⟨r₂, chosen₂, least₂⟩ | ⟨before, n, after, split, forfeits⟩
      · exact .inl ⟨r₂, chosen₂, least₂.trans least⟩
      · exact .inr ⟨m :: before, n, after, by rw [split]; rfl, forfeits⟩
    · exact .inr ⟨[], m, points, rfl, forfeits⟩

theorem tidy_foldl {points : List (Member Float P)} (tidy : s.Tidy w)
    (exact : ∀ m ∈ points, m.f.Exact w) : (points.foldl take s).Tidy w := by
  induction points generalizing s with
  | nil => exact tidy
  | cons m points ih =>
    exact ih (tidy_take tidy (exact m List.mem_cons_self))
      fun n hn => exact n (List.mem_cons_of_mem _ hn)

theorem tidy_empty {dim : Nat} {limit : Option Nat} (roomy : ∀ l, limit = some l → 0 < l) :
    (empty dim w limit : Front Float P).Tidy w :=
  ⟨roomy, fun _ _ => Nat.zero_le _, nofun⟩

theorem Tidy.measured (h : s.Tidy w) : s.measured.Tidy w :=
  ⟨h.roomy, h.fits, h.exact⟩

theorem nonempty_foldl_take {points : List (Member Float P)} (roomy : s.Roomy)
    (h : 0 < s.size ∨ points ≠ []) : 0 < (points.foldl take s).size := by
  induction points generalizing s with
  | nil => exact h.resolve_right fun none => none rfl
  | cons m points ih =>
    have roomy' : (s.take m).Roomy := by
      intro limit limited
      exact roomy limit ((limit_offer _ _ _ _).symm.trans limited)
    exact ih roomy' (.inl (nonempty_offer roomy _ _ _))

theorem limit_foldl_take (s : Front Float P) (points : List (Member Float P)) :
    (points.foldl take s).limit = s.limit := by
  induction points generalizing s with
  | nil => rfl
  | cons m points ih => exact (ih (s.take m)).trans (limit_offer _ _ _ _)

end Front

/-- What a front makes of several points, it makes of them one by one. -/
theorem Tracker.foldl_take_front {P : Type} (s : Front Float P) (points : List (Member Float P)) :
    points.foldl Tracker.take (.several s) = .several (points.foldl Front.take s) := by
  induction points generalizing s with
  | nil => rfl
  | cons m points ih => exact ih (s.take m)

deriving instance DecidableEq for Member, Front

namespace Crowded

/-- Payloads need not be compared where there are none. -/
noncomputable scoped instance : DecidableEq Value :=
  Classical.decEq Value

def point (x : Float) (f : Row Float) : Member Float Value :=
  ⟨#[x], f, none⟩

/-- The front after the first population. -/
def full : Front Float Value :=
  ⟨1, 2, some 2, #[point 0.25 #[0.0, 10.0], point 0.75 #[1.0, 1.0]], none⟩

/-- No member dominates this point, and it dominates none. -/
def newcomer : Member Float Value :=
  point 0.375 #[10.0, 0.0]

/-- The front with one point too many. -/
def overfull : Front Float Value :=
  { full with members := full.members.push newcomer }

/-- The front that is left. -/
def reduced : Front Float Value :=
  { full with members := #[point 0.25 #[0.0, 10.0], newcomer] }

/-- The member between the two others is the most crowded, though it has the smallest sum. -/
theorem mostCrowded?_overfull : overfull.mostCrowded? = some 1 := by
  have numeric : ∀ f ∈ overfull.F, f.Numeric := by decide +kernel
  have first : Crowding.ranking (overfull.F.column 0) = [0, 1, 2] :=
    Crowding.ranking_unique (Crowding.column_le_self numeric 0) (by decide +kernel)
      (by decide +kernel)
  have second : Crowding.ranking (overfull.F.column 1) = [2, 1, 0] :=
    Crowding.ranking_unique (Crowding.column_le_self numeric 1) (by decide +kernel)
      (by decide +kernel)
  have distances : overfull.distances = #[Scalar.infinity, 2.0, Scalar.infinity] := by
    have three : ¬overfull.F.size ≤ 2 := by decide +kernel
    have steps : Crowding.distances 2 overfull.F = Crowding.addObjective
        (Crowding.addObjective (overfull.F.map fun _ => Scalar.zero) (overfull.F.column 0))
        (overfull.F.column 1) := if_neg three
    change Crowding.distances 2 overfull.F = _
    rw [steps, Crowding.addObjective, Crowding.addObjective, first, second]
    decide +kernel
  rw [Front.mostCrowded?, distances]
  decide +kernel

theorem take_newcomer : full.take newcomer = reduced := by
  have enters : ¬full.members.any (Front.bars · newcomer.x newcomer.f) = true := by decide +kernel
  have all : (full.members.filter fun m => !Dominance.dominates newcomer.f m.f) =
      full.members := by decide +kernel
  have excess : 2 < overfull.size := by decide +kernel
  have less : overfull.truncate.1 =
      { overfull with members := overfull.members.eraseIdxIfInBounds 1 } := by
    have limited : overfull.limit = some 2 := rfl
    simp only [Front.truncate, limited, if_pos excess, mostCrowded?_overfull]
    rfl
  rw [Front.take, Front.offer, if_neg enters, all]
  change overfull.truncate.1 = _
  rw [less]
  decide +kernel

end Crowded

end BoxSearch
