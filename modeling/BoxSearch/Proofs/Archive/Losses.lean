import BoxSearch.Proofs.Archive.Representative

/-!
What a front gives up for its limit.

A point that enters may be one too many. Then the most crowded of the members goes, the newest of
several equally crowded ones. Its place tells which one it was only together with the members of
that moment, so both are written down for every offer.
-/

namespace BoxSearch

open Scalar OrderedScalar

namespace Crowding

variable {α : Type} [Scalar α]

/-- No row is more crowded than the `i`-th one, and later rows are less crowded. -/
structure MostCrowded (d : Array α) (i : Nat) : Prop where
  inside : i < d.size
  least : ∀ j < d.size, d.getD i zero ≤ d.getD j zero
  last : ∀ j < d.size, i < j → d.getD i zero < d.getD j zero

/-- There is only one such row. -/
theorem MostCrowded.unique [OrderedScalar α] {d : Array α} {i j : Nat} (hi : MostCrowded d i)
    (hj : MostCrowded d j) : i = j := by
  rcases Nat.lt_trichotomy i j with below | same | above
  · exact absurd (hj.least i hi.inside) (not_le_of_lt (hi.last j hj.inside below))
  · exact same
  · exact absurd (hi.least j hj.inside) (not_le_of_lt (hj.last i hi.inside above))

end Crowding

namespace Front

open Crowding

/-- The most crowded member is found, if distances can be compared. -/
theorem mostCrowded_of_found {α P : Type} [Scalar α] [SignedScalar α] {s : Front α P} {n i : Nat}
    (comparable : Comparable n s.distances) (found : s.mostCrowded? = some i) :
    MostCrowded s.distances i := by
  have number : ∀ j < s.distances.size, isNaN (s.distances.getD j zero) = false := by
    intro j hj
    have nonneg := comparable.nonneg (s.distances.getD j zero) (by simp [hj])
    exact isNaN_eq_false_iff.mpr (le_self_of_le nonneg).2
  cases first : argMin? s.distances with
  | none =>
    rw [mostCrowded?, first] at found
    cases found
  | some b =>
    simp only [mostCrowded?, first, Option.map_some] at found
    have least := argMin?_le number first
    obtain ⟨equal, before, after, parts, unequal⟩ := List.find?_eq_some_iff_append.mp found
    have equal := beq_iff.mp equal
    have mem {j : Nat} : j < s.distances.size ↔ j ∈ before ++ i :: after := by
      rw [← parts, List.mem_reverse, List.mem_range]
    refine ⟨mem.mpr (by simp), fun j hj => le_trans equal.1 (least j hj), fun j hj later => ?_⟩
    -- later places are looked at first
    have descending : (before ++ i :: after).Pairwise (· > ·) := by
      rw [← parts, List.pairwise_reverse]
      exact List.pairwise_lt_range
    have skipped : j ∈ before := by
      rcases List.mem_append.mp (mem.mp hj) with skipped | rest
      · exact skipped
      · rcases List.mem_cons.mp rest with rfl | rest
        · exact absurd later (Nat.lt_irrefl j)
        · have below := List.rel_of_pairwise_cons (List.pairwise_append.mp descending).2.1 rest
          omega
    have apart : ¬s.distances.getD j zero ≤ s.distances.getD b zero := by
      intro close
      have differs := unequal j skipped
      rw [beq_iff.mpr ⟨close, least j hj⟩] at differs
      cases differs
    exact lt_of_le_of_lt equal.1 (lt_iff.mpr ⟨least j hj, apart⟩)

variable {P : Type} {s : Front Float P} {p : Member Float P}

/-- The members of a front with a point too many, and the place that it gives up. -/
structure Loss (P : Type) where
  members : Array (Member Float P)
  place : Nat

def Loss.F (loss : Loss P) : Rows Float := loss.members.map (·.f)

/-- What an offer makes a front give up. -/
def loss? (s : Front Float P) (p : Member Float P) : Option (Loss P) :=
  (s.offer p.x p.f p.product).dropped.map fun place => ⟨(s.undominated p).push p, place⟩

/-- What several offers make a front give up. -/
def losses (s : Front Float P) : List (Member Float P) → List (Loss P)
  | [] => []
  | p :: points => (s.loss? p).toList ++ (s.take p).losses points

/-- What a front gives up during several accesses. -/
def lossesOf (s : Front Float P) : List (Access Float P) → List (Loss P)
  | [] => []
  | a :: rest => s.losses a.points ++ (a.run s).lossesOf rest

/-- The front with a point that enters, before it is truncated. -/
def grown (s : Front Float P) (p : Member Float P) : Front Float P :=
  { s with members := (s.undominated p).push p, crowding := none }

theorem offer_eq (s : Front Float P) (p : Member Float P) :
    s.offer p.x p.f p.product =
      if s.members.any (bars · p.x p.f) then ⟨s, false, none⟩
      else ⟨(s.grown p).truncate.1, true, (s.grown p).truncate.2⟩ :=
  rfl

/-- A point that enters is one too many, or nothing is given up for it. A loss is the most crowded
member by distances that are computed anew. -/
theorem loss_cases (s : Front Float P) (p : Member Float P) :
    (s.take p = s ∧ s.members.any (bars · p.x p.f) = true ∧ s.loss? p = none) ∨
    s.members.any (bars · p.x p.f) = false ∧
      (s.take p = s.grown p ∧ s.loss? p = none ∨
        ∃ i, ∃ hi : i < (s.grown p).members.size,
          s.take p = { s.grown p with members := (s.grown p).members.eraseIdx i } ∧
          s.loss? p = some ⟨(s.grown p).members, i⟩ ∧
          (∀ limit, s.limit = some limit → limit < (s.grown p).members.size) ∧
          MostCrowded (Crowding.distances s.nObj (s.grown p).F) i) := by
  by_cases barred : s.members.any (bars · p.x p.f) = true
  · left
    simp [take, loss?, offer_eq, barred]
  right
  refine ⟨Bool.eq_false_iff.mpr barred, ?_⟩
  have outcome : s.offer p.x p.f p.product =
      ⟨(s.grown p).truncate.1, true, (s.grown p).truncate.2⟩ := by rw [offer_eq, if_neg barred]
  cases limited : s.limit with
  | none =>
    left
    have same : (s.grown p).truncate = (s.grown p, none) := by simp [truncate, grown, limited]
    simp [take, loss?, outcome, same]
  | some limit =>
    rcases truncate_cases (s := s.grown p) limited rfl with
      ⟨small, same⟩ | ⟨excess, i, hi, crowded, less⟩
    · left
      simp [take, loss?, outcome, same]
    · right
      have comparable : Comparable (s.grown p).F.size (s.grown p).distances :=
        Crowding.comparable_distances s.nObj (s.grown p).F
      refine ⟨i, hi, ?_, ?_, ?_, mostCrowded_of_found comparable crowded⟩
      · rw [take, outcome, less]
        rfl
      · rw [loss?, outcome, less]
        rfl
      · rintro _ ⟨⟩
        exact excess

/-- A batch gives up what its points make the front give up one after another. -/
theorem foldl_offer (points : List (Member Float P)) (t : Tally Float P) :
    let t' := (points.map fun p => (p.x, p.f, p.product)).foldl Tally.offer t
    t'.front = points.foldl take t.front ∧
      t'.dropped = t.dropped ++ (t.front.losses points).map (·.place) := by
  induction points generalizing t with
  | nil => simp [losses]
  | cons p points ih =>
    obtain ⟨front, dropped⟩ := ih (t.offer (p.x, p.f, p.product))
    refine ⟨front, dropped.trans ?_⟩
    have first : (t.front.loss? p).toList.map (·.place) =
        (t.front.offer p.x p.f p.product).dropped.toList := by
      rw [loss?, Option.toList_map, List.map_map]
      exact List.map_id _
    rw [losses, List.map_append, ← List.append_assoc, first]
    rfl

/-- A batch reports the places of what it made the front give up. -/
theorem dropped_offerMany (s : Front Float P) (X F : Rows Float)
    (products : Option (Array (Option P))) :
    (s.offerMany X F products).1.dropped =
      (s.losses (Call.many X F products).points).map (·.place) := by
  rw [offerMany_front]
  exact (foldl_offer (Call.many X F products).points ⟨s, 0, []⟩).2

end Front

end BoxSearch
