import BoxSearch.Proofs.Archive.Crowding
import BoxSearch.Proofs.Archive.Front
import BoxSearch.Proofs.Archive.Held

/-!
What a front with a limit looks like, whatever happened to it.

A limit makes the front forget: a point that was given up may be offered again and enter, so the
members are not a function of the set of points offered. What stays true is an invariant. Every
member was offered, no two members are equal, none dominates another, and there are at most as many
as the limit allows. The last part needs a most crowded member to exist whenever there is one too
many, and hence distances that can be compared. Those may also have been computed long before: the
front keeps them until its membership changes.
-/

namespace BoxSearch

namespace Front

open Dominance Scalar OrderedScalar

variable {α P : Type}

/-- What can be done with a front: points are handed over, and it is read. A tournament has drawn
two places. -/
inductive Access (α P : Type) where
  | offer (call : Call α P)
  | crowding
  | sample
  | tournament (a b : Nat)
  | representative

variable [Scalar α]

/-- The front after an access. Reading leaves the crowding distances behind if they were needed: two
different members of a tournament are told apart by them. -/
def Access.run (s : Front α P) : Access α P → Front α P
  | offer call => call.run s
  | crowding => s.measured
  | tournament a b => if a != b then s.measured else s
  | sample => s
  | representative => s

/-- The points that an access hands over. -/
def Access.points : Access α P → List (Member α P)
  | offer call => call.points
  | _ => []

/-- All points that were handed over, in order. -/
def handed (accesses : List (Access α P)) : List (Member α P) :=
  accesses.flatMap Access.points

/-- No member dominates another, and no two members are numerically equal. -/
structure Apart (members : List (Member α P)) : Prop where
  undominated : ∀ m ∈ members, ∀ n ∈ members, dominates m.f n.f = false
  distinct : members.Pairwise fun m n => m.same n = false

theorem Apart.sublist {members rest : List (Member α P)} (h : Apart members)
    (sub : rest.Sublist members) : Apart rest where
  undominated := fun m hm n hn => h.undominated m (sub.subset hm) n (sub.subset hn)
  distinct := h.distinct.sublist sub

/-- A front with a limit after the points of a history. -/
structure Within (limit nVar nObj : Nat) (history : List (Member α P)) (s : Front α P) : Prop where
  objectives : s.nObj = nObj
  limited : s.limit = some limit
  size : s.size ≤ limit
  nonempty : history ≠ [] → 0 < s.size
  apart : Apart s.members.toList
  offered : ∀ m ∈ s.members, m ∈ history
  /-- Distances that are kept are those of the present members. -/
  current : ∀ d, s.crowding = some d → d = Crowding.distances nObj s.F

theorem within_empty (limit nVar nObj : Nat) :
    Within limit nVar nObj [] (empty nVar nObj (some limit) : Front α P) where
  objectives := rfl
  limited := rfl
  size := Nat.zero_le _
  nonempty := fun h => absurd rfl h
  apart := ⟨by simp [empty], by simp [empty]⟩
  offered := by simp [empty]
  current := by simp [empty]

variable {limit nVar nObj : Nat} {history : List (Member α P)} {s : Front α P}

/-- The distances that a front answers with are those of its members, kept or not. -/
theorem Within.distances_eq (h : Within limit nVar nObj history s) :
    s.distances = Crowding.distances nObj s.F := by
  unfold distances
  cases kept : s.crowding with
  | none => rw [h.objectives]
  | some d => exact h.current d kept

theorem within_measured (h : Within limit nVar nObj history s) :
    Within limit nVar nObj history s.measured where
  objectives := h.objectives
  limited := h.limited
  size := h.size
  nonempty := h.nonempty
  apart := h.apart
  offered := h.offered
  current := by
    intro d hd
    obtain rfl : s.distances = d := Option.some.inj hd
    exact h.distances_eq

theorem leastStep_ne_none (xs : Array α) (best : Option Nat) (i : Nat) :
    leastStep xs best i ≠ none := by
  unfold leastStep
  split
  · simp
  · split
    · simp
    · split <;> simp

theorem exists_argMin {xs : Array α} (nonempty : 0 < xs.size) : ∃ i, argMin? xs = some i := by
  rw [argMin?_eq]
  obtain ⟨n, hn⟩ := Nat.exists_eq_succ_of_ne_zero (Nat.pos_iff_ne_zero.mp nonempty)
  rw [hn, List.range_succ, List.foldl_append]
  exact Option.ne_none_iff_exists'.mp (leastStep_ne_none _ _ _)

/-- The distances that were kept do not outlive the members that they belong to. -/
theorem within_of_members {members : Array (Member α P)} (objectives : s.nObj = nObj)
    (limited : s.limit = some limit) (size : members.size ≤ limit) (nonempty : 0 < members.size)
    (apart : Apart members.toList) (offered : ∀ m ∈ members, m ∈ history) :
    Within limit nVar nObj history { s with members := members, crowding := none } where
  objectives := objectives
  limited := limited
  size := size
  nonempty := fun _ => nonempty
  apart := apart
  offered := offered
  current := by simp

/-- Points that change nothing may be added to the history of a front that is not empty. -/
theorem within_append (h : Within limit nVar nObj history s) (nonempty : 0 < s.size)
    (more : List (Member α P)) : Within limit nVar nObj (history ++ more) s :=
  { h with
    nonempty := fun _ => nonempty
    offered := fun m hm => List.mem_append_left _ (h.offered m hm) }

variable [SignedScalar α]

/-- Distances that can be compared have a smallest one, so that some member is most crowded. -/
theorem exists_mostCrowded {n : Nat} (comparable : Crowding.Comparable n s.distances)
    (nonempty : 0 < n) : ∃ i < n, s.mostCrowded? = some i := by
  have size : s.distances.size = n := comparable.size
  have filled : 0 < s.distances.size := by omega
  obtain ⟨least, hleast⟩ := exists_argMin filled
  have inside : least < s.distances.size := argMin?_lt hleast
  have entry : s.distances.getD least zero ∈ s.distances := by
    simp [inside]
  have number := (le_self_of_le (comparable.nonneg _ entry)).2
  obtain ⟨i, hi⟩ : ∃ i, (List.range s.distances.size).reverse.find?
      (fun i => s.distances.getD i zero == s.distances.getD least zero) = some i := by
    apply Option.isSome_iff_exists.mp
    rw [List.find?_isSome]
    exact ⟨least, by simp [inside], beq_iff.mpr ⟨number, number⟩⟩
  refine ⟨i, ?_, ?_⟩
  · have place := List.mem_of_find?_eq_some hi
    simp at place
    omega
  · simp only [mostCrowded?, hleast, Option.map_some]
    exact hi

/-- A front with one member too many gives up the most crowded one, any other front none. -/
theorem truncate_cases (limited : s.limit = some limit) (fresh : s.crowding = none) :
    (s.size ≤ limit ∧ s.truncate = (s, none)) ∨
      limit < s.size ∧ ∃ i, ∃ hi : i < s.members.size, s.mostCrowded? = some i ∧
        s.truncate = ({ s with members := s.members.eraseIdx i, crowding := none }, some i) := by
  by_cases excess : limit < s.size
  · right
    have distances : s.distances = Crowding.distances s.nObj s.F := by simp [distances, fresh]
    have comparable : Crowding.Comparable s.F.size s.distances := by
      rw [distances]
      exact Crowding.comparable_distances s.nObj s.F
    have size : s.F.size = s.members.size := by simp [F]
    rw [size] at comparable
    obtain ⟨i, hi, found⟩ := exists_mostCrowded comparable (by unfold Front.size at excess; omega)
    refine ⟨excess, i, hi, found, ?_⟩
    simp [truncate, limited, excess, found, Array.eraseIdxIfInBounds, hi]
  · left
    refine ⟨by omega, ?_⟩
    simp [truncate, limited, excess]

/-- A point that no member dominates or equals is kept apart from the members that it does not
dominate. -/
theorem apart_push {members : List (Member α P)} {p : Member α P} (apart : Apart members)
    (free : ∀ m ∈ members, dominates m.f p.f = false ∧ m.same p = false) :
    Apart (members.filter (fun m => !dominates p.f m.f) ++ [p]) := by
  have kept := apart.sublist (List.filter_sublist (p := fun m => !dominates p.f m.f))
  have left {m : Member α P} (hm : m ∈ members.filter fun m => !dominates p.f m.f) :
      m ∈ members ∧ dominates p.f m.f = false := by
    simpa using hm
  constructor
  · intro m hm n hn
    rcases List.mem_append.mp hm with old | new <;>
      rcases List.mem_append.mp hn with old' | new'
    · exact kept.undominated m old n old'
    · obtain rfl := List.mem_singleton.mp new'
      exact (free m (left old).1).1
    · obtain rfl := List.mem_singleton.mp new
      exact (left old').2
    · obtain rfl := List.mem_singleton.mp new
      obtain rfl := List.mem_singleton.mp new'
      exact dominates_irrefl _
  · rw [List.pairwise_append]
    refine ⟨kept.distinct, List.pairwise_singleton _ _, ?_⟩
    intro m hm n hn
    obtain rfl := List.mem_singleton.mp hn
    exact (free m (left hm).1).2

/-- Giving up a member restores the limit, and leaves a member since the limit is positive. -/
theorem within_truncate (positive : 1 ≤ limit) (objectives : s.nObj = nObj)
    (limited : s.limit = some limit) (fresh : s.crowding = none)
    (size : s.size ≤ limit + 1) (nonempty : 0 < s.size) (apart : Apart s.members.toList)
    (offered : ∀ m ∈ s.members, m ∈ history) :
    Within limit nVar nObj history s.truncate.1 := by
  rcases truncate_cases limited fresh with ⟨small, same⟩ | ⟨excess, i, hi, -, less⟩
  · rw [same]
    exact ⟨objectives, limited, small, fun _ => nonempty, apart, offered, by simp [fresh]⟩
  · rw [less]
    have sizeLess : (s.members.eraseIdx i).size = s.members.size - 1 := Array.size_eraseIdx ..
    unfold Front.size at size excess
    apply within_of_members objectives limited
    · omega
    · omega
    · apply apart.sublist
      rw [Array.toList_eraseIdx]
      exact List.eraseIdx_sublist _ _
    · intro m hm
      exact offered m (Array.mem_of_mem_eraseIdx hm)

/-- One more point keeps the invariant. -/
theorem within_offer (h : Within limit nVar nObj history s) (positive : 1 ≤ limit)
    (p : Member α P) :
    Within limit nVar nObj (history ++ [p]) (s.offer p.x p.f p.product).front := by
  unfold offer
  by_cases barred : s.members.any (bars · p.x p.f) = true
  · rw [if_pos barred]
    obtain ⟨i, hi, _⟩ := Array.any_eq_true.mp barred
    exact within_append h (Nat.zero_lt_of_lt hi) [p]
  · rw [if_neg barred]
    let kept := s.members.filter fun m => !dominates p.f m.f
    let grown : Front α P := { s with members := kept.push p, crowding := none }
    change Within limit nVar nObj (history ++ [p]) grown.truncate.1
    have members : grown.members.toList =
        s.members.toList.filter (fun m => !dominates p.f m.f) ++ [p] := by
      simp [grown, kept]
    have fewer : kept.size ≤ s.members.size := Array.size_filter_le ..
    have before : s.members.size ≤ limit := h.size
    have unbarred : ∀ m ∈ s.members, bars m p.x p.f = false := by
      intro m hm
      rw [Bool.eq_false_iff]
      exact fun h => barred (Array.any_eq_true'.mpr ⟨m, hm, h⟩)
    apply within_truncate (s := grown) positive h.objectives h.limited rfl
    · simp only [grown, Front.size, Array.size_push]
      omega
    · simp [grown, Front.size]
    · rw [members]
      apply apart_push h.apart
      intro m hm
      simpa [bars, Member.same] using unbarred m (Array.mem_toList_iff.mp hm)
    · intro m hm
      rcases Array.mem_push.mp hm with old | rfl
      · exact List.mem_append_left _ (h.offered m (Array.mem_filter.mp old).1)
      · simp

theorem within_foldl (positive : 1 ≤ limit) {points : List (Member α P)} {t : Tally α P}
    (h : Within limit nVar nObj history t.front) :
    Within limit nVar nObj (history ++ points)
      ((points.map fun m => (m.x, m.f, m.product)).foldl Tally.offer t).front := by
  induction points generalizing history t with
  | nil => simpa using h
  | cons p rest ih =>
    rw [List.append_cons]
    exact ih (within_offer h positive p)

/-- Every access keeps the invariant. -/
theorem within_access (positive : 1 ≤ limit) {a : Access α P}
    (h : Within limit nVar nObj history s) :
    Within limit nVar nObj (history ++ a.points) (a.run s) := by
  cases a with
  | offer call =>
    cases call with
    | one x f product => exact within_offer h positive ⟨x, f, product⟩
    | many X F products =>
      simp only [Access.run, Access.points, Call.run, offerMany_front]
      exact within_foldl positive h
  | crowding => simpa [Access.points, Access.run] using within_measured h
  | sample => simpa [Access.points, Access.run] using h
  | representative => simpa [Access.points, Access.run] using h
  | tournament a b =>
    simp only [Access.run, Access.points, List.append_nil]
    split
    · exact within_measured h
    · exact h

/-- Any accesses keep the invariant. -/
theorem within_accesses (positive : 1 ≤ limit) (accesses : List (Access α P))
    (h : Within limit nVar nObj history s) :
    Within limit nVar nObj (history ++ handed accesses) (accesses.foldl Access.run s) := by
  induction accesses generalizing history s with
  | nil => simpa [handed] using h
  | cons a rest ih =>
    rw [handed, List.flatMap_cons, ← List.append_assoc]
    exact ih (within_access positive h)

/-- After any offers and reads a front with a limit has a member as soon as a point was offered, and
no more members than the limit. No member dominates another, no two are numerically equal, and
parameters, fitness and payload in one place were offered together. The distances that it answers
with are those of its members, and an offer that is turned down changes nothing. -/
theorem limited_front_sound {P : Type} (nVar nObj limit : Nat) (positive : 1 ≤ limit)
    (accesses : List (Access Float P))
    (numeric : ∀ m ∈ handed accesses, m.Numeric nVar nObj) :
    let front := accesses.foldl Access.run (empty nVar nObj (some limit))
    (handed accesses ≠ [] → 0 < front.size) ∧ front.size ≤ limit ∧
      (∀ m ∈ front.members, ∀ n ∈ front.members, dominates m.f n.f = false) ∧
      front.members.toList.Pairwise (fun m n => m.same n = false) ∧
      (front.X.size = front.size ∧ front.F.size = front.size ∧
        front.products.size = front.size) ∧
      (∀ i < front.size, ∃ m ∈ handed accesses, front.X[i]? = some m.x ∧
        front.F[i]? = some m.f ∧ front.products[i]? = some m.product) ∧
      front.distances = Crowding.distances nObj front.F ∧
      ∀ p : Member Float P, (front.offer p.x p.f p.product).entered = false →
        (front.offer p.x p.f p.product).front = front := by
  intro front
  have within : Within limit nVar nObj (handed accesses) front :=
    within_accesses positive accesses (within_empty limit nVar nObj)
  refine ⟨within.nonempty, within.size, ?_, within.apart.distinct, ?_, ?_,
    within.distances_eq, ?_⟩
  · intro m hm n hn
    exact within.apart.undominated m (Array.mem_toList_iff.mpr hm) n (Array.mem_toList_iff.mpr hn)
  · simp [X, F, products, Front.size]
  · intro i hi
    have member : front.members[i] ∈ front.members := Array.getElem_mem hi
    have inside : i < front.members.size := hi
    exact ⟨front.members[i], within.offered _ member, by simp [X, inside], by simp [F, inside],
      by simp [products, inside]⟩
  · intro p turnedDown
    unfold offer at turnedDown ⊢
    by_cases barred : front.members.any (bars · p.x p.f) = true
    · simp [barred]
    · simp [barred] at turnedDown

/-- A front with room for one: a point that is given up at once for the limit, a batch whose first
row drives out the member and whose second row is turned down, and reads in between. -/
theorem limited_front_sound_single :
    let accesses : List (Access Float Nat) :=
      [.offer (.one #[0.0] #[0.0, 8.0] (some 1)), .crowding,
        .offer (.one #[0.5] #[8.0, 0.0] (some 2)), .tournament 0 0,
        .offer (.many #[#[1.0], #[2.0]] #[#[0.0, 4.0], #[1.0, 4.0]] (some #[some 3, none])),
        .representative]
    let front := accesses.foldl Access.run (empty 1 2 (some 1))
    (∀ m ∈ handed accesses, m.Numeric 1 2) ∧ 0 < front.size ∧ front.size ≤ 1 ∧
      front.products = #[some 3] ∧
      (∀ m ∈ front.members, ∀ n ∈ front.members, dominates m.f n.f = false) ∧
      (front.offer #[9.0] #[0.0, 9.0] none).front = front := by
  intro accesses front
  have numeric : ∀ m ∈ handed accesses, m.Numeric 1 2 := by decide +kernel
  obtain ⟨nonempty, size, undominated, _, _, _, _, turnedDown⟩ :=
    limited_front_sound 1 2 1 (by decide) accesses numeric
  refine ⟨numeric, nonempty (by simp [accesses, handed, Access.points, Call.points]), size, ?_,
    undominated, ?_⟩
  · decide +kernel
  · exact turnedDown ⟨#[9.0], #[0.0, 9.0], none⟩ (by decide +kernel)

end Front

end BoxSearch
