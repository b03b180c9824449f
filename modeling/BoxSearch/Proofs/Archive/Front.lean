import BoxSearch.Proofs.Archive.Maximal
import BoxSearch.Proofs.Scalar.Binary

/-!
A front without a limit keeps exactly the maximal points of all that it was ever offered.

The front itself remembers only its members. That they suffice is what `maximal_concat` says: a
point that left the front or never entered it has a member above it or equal to it. So one offer
takes the front of a history to the front of the longer history, and calls compose.
-/

namespace BoxSearch

namespace Front

open Dominance

variable {α P : Type}

/-- A call that hands points to a front. -/
inductive Call (α P : Type) where
  | one (x f : Row α) (product : Option P)
  | many (X F : Rows α) (products : Option (Array (Option P)))

/-- The number of rows before the first one whose fitness or payload is missing. -/
def reach (X F : Rows α) : Option (Array (Option P)) → Nat
  | some products => min X.size (min F.size products.size)
  | none => min X.size F.size

variable [Scalar α]

/-- The points that a call hands over, in order. -/
def Call.points : Call α P → List (Member α P)
  | one x f product => [⟨x, f, product⟩]
  | many X F products =>
    (List.range (reach X F products)).map fun i =>
      ⟨X.row i, F.row i, products.bind fun products => (products[i]?).join⟩

/-- The front after a call. -/
def Call.run (s : Front α P) : Call α P → Front α P
  | one x f product => (s.offer x f product).front
  | many X F products => (s.offerMany X F products).1.front

/-- All points of several calls, in order. -/
def offered (calls : List (Call α P)) : List (Member α P) :=
  calls.flatMap Call.points

/-- A front without a limit whose members are the maximal points of a history. -/
structure Keeps (history : List (Member α P)) (s : Front α P) : Prop where
  unlimited : s.limit = none
  members : s.members.toList = maximal history

/-- Without a limit an offer either changes nothing, or puts the point behind the members that it
does not dominate. -/
theorem offer_unlimited {s : Front α P} (unlimited : s.limit = none) (x f : Row α)
    (product : Option P) :
    s.offer x f product =
      if s.members.any (bars · x f) then ⟨s, false, none⟩
      else
        ⟨{ s with
            members := (s.members.filter fun m => !dominates f m.f).push ⟨x, f, product⟩
            crowding := none }, true, none⟩ := by
  rw [offer]
  simp only [truncate, unlimited]

theorem keeps_empty (nVar nObj : Nat) : Keeps [] (empty nVar nObj none : Front α P) :=
  ⟨rfl, rfl⟩

/-- Partial values that are there below `r` and end at `r` are taken up to `r`. -/
private theorem takenUpTo {β : Type} {found : Nat → Option β} {value : Nat → β} {r n : Nat}
    (hr : r ≤ n) (below : ∀ i < r, found i = some (value i)) (stop : r < n → found r = none) :
    (((List.range n).map found).takeWhile Option.isSome).filterMap id =
      (List.range r).map value := by
  obtain ⟨k, rfl⟩ := Nat.exists_eq_add_of_le hr
  have first : (List.range r).map found = (List.range r).map (some ∘ value) := by
    apply List.map_congr_left
    intro i hi
    exact below i (List.mem_range.mp hi)
  have rest : (((List.range k).map (r + ·)).map found).takeWhile Option.isSome = [] := by
    cases k with
    | zero => rfl
    | succ k =>
      have hstop : found r = none := stop (by omega)
      simp [List.range_succ_eq_map, hstop]
  rw [List.range_add, List.map_append, first, List.takeWhile_append_of_pos (by simp), rest,
    List.append_nil, ← List.map_map]
  simp [List.filterMap_map]

/-- A batch is offered up to the first row whose fitness or payload is missing. -/
theorem offerMany_front (s : Front α P) (X F : Rows α) (products : Option (Array (Option P))) :
    (s.offerMany X F products).1 =
      s.offerAll ((Call.many X F products).points.map fun m => (m.x, m.f, m.product)) := by
  rw [offerMany, Call.points, List.map_map]
  refine congrArg s.offerAll ?_
  cases products with
  | none =>
    apply takenUpTo
    · exact Nat.min_le_left _ _
    · intro i hi
      have hX : i < X.size := Nat.lt_of_lt_of_le hi (Nat.min_le_left _ _)
      have hF : i < F.size := Nat.lt_of_lt_of_le hi (Nat.min_le_right _ _)
      simp [pointAt?, Rows.row, hX, hF]
    · intro hstop
      have hF : F.size ≤ reach X F (none : Option (Array (Option P))) := by
        simp only [reach] at hstop ⊢
        omega
      simp [pointAt?, hF]
  | some products =>
    apply takenUpTo
    · exact Nat.min_le_left _ _
    · intro i hi
      simp only [reach] at hi
      have hX : i < X.size := by omega
      have hF : i < F.size := by omega
      have hP : i < products.size := by omega
      simp [pointAt?, Rows.row, hX, hF, hP]
    · intro hstop
      have ends : F.size ≤ reach X F (some products)
          ∨ products.size ≤ reach X F (some products) := by
        simp only [reach] at hstop ⊢
        omega
      rcases ends with hF | hP
      · have missing : F[reach X F (some products)]? = none := Array.getElem?_eq_none hF
        simp [pointAt?, missing]
      · have missing : products[reach X F (some products)]? = none := Array.getElem?_eq_none hP
        cases hF : F[reach X F (some products)]? <;> simp [pointAt?, hstop, hF, missing]

variable [OrderedScalar α] {nVar nObj : Nat} {history : List (Member α P)} {s : Front α P}

theorem keeps_offer (h : Keeps history s) (numeric : ∀ m ∈ history, m.Numeric nVar nObj)
    {p : Member α P} (hp : p.Numeric nVar nObj) :
    Keeps (history ++ [p]) (s.offer p.x p.f p.product).front := by
  have barred : s.members.any (bars · p.x p.f) =
      (maximal history).any fun m => dominates m.f p.f || m.same p := by
    rw [← h.members, Array.any_toList]
    rfl
  have next := maximal_concat numeric hp.sizeF
  rw [offer_unlimited h.unlimited, barred]
  by_cases hbarred : ((maximal history).any fun m => dominates m.f p.f || m.same p) = true
  · rw [if_pos hbarred] at next ⊢
    exact ⟨h.unlimited, h.members.trans next.symm⟩
  · rw [if_neg hbarred] at next ⊢
    refine ⟨h.unlimited, ?_⟩
    rw [next, ← h.members]
    simp

/-- Offers of a list of points, one after another, extend the history by that list. The counters of
the tally play no part. -/
theorem keeps_foldl {points : List (Member α P)} {t : Tally α P} (h : Keeps history t.front)
    (numeric : ∀ m ∈ history ++ points, m.Numeric nVar nObj) :
    Keeps (history ++ points)
      ((points.map fun m => (m.x, m.f, m.product)).foldl Tally.offer t).front := by
  induction points generalizing history t with
  | nil => simpa using h
  | cons p rest ih =>
    rw [List.append_cons] at numeric ⊢
    have numericSoFar : ∀ m ∈ history, m.Numeric nVar nObj := fun m hm =>
      numeric m (List.mem_append_left _ (List.mem_append_left _ hm))
    have numericP : p.Numeric nVar nObj := numeric p (by simp)
    exact ih (keeps_offer h numericSoFar numericP) numeric

theorem keeps_call {c : Call α P} (h : Keeps history s)
    (numeric : ∀ m ∈ history ++ c.points, m.Numeric nVar nObj) :
    Keeps (history ++ c.points) (c.run s) := by
  cases c with
  | one x f product =>
    have numericSoFar : ∀ m ∈ history, m.Numeric nVar nObj := fun m hm =>
      numeric m (List.mem_append_left _ hm)
    exact keeps_offer h numericSoFar (numeric ⟨x, f, product⟩ (by simp [Call.points]))
  | many X F products =>
    rw [Call.run, offerMany_front]
    exact keeps_foldl h numeric

theorem keeps_calls (calls : List (Call α P)) (h : Keeps history s)
    (numeric : ∀ m ∈ history ++ offered calls, m.Numeric nVar nObj) :
    Keeps (history ++ offered calls) (calls.foldl Call.run s) := by
  induction calls generalizing history s with
  | nil => simpa [offered] using h
  | cons c rest ih =>
    rw [offered, List.flatMap_cons, ← List.append_assoc] at numeric ⊢
    have numericCall : ∀ m ∈ history ++ c.points, m.Numeric nVar nObj := fun m hm =>
      numeric m (List.mem_append_left _ hm)
    exact ih (keeps_call h numericCall) numeric

/-- After any calls on a new front without a limit its members are the points offered that no
point offered dominates: each numerically distinct one once, in the order of first offers and with
the payload of the first offer. One more offer is accepted exactly if no point so far dominates or
equals it. The point is then put behind the members that it does not dominate; otherwise nothing
changes. -/
theorem unlimited_front_exact {P : Type} (nVar nObj : Nat) (calls : List (Call Float P))
    (numeric : ∀ m ∈ offered calls, m.Numeric nVar nObj) :
    let front := calls.foldl Call.run (empty nVar nObj none)
    front.members.toList = maximal (offered calls) ∧
      ∀ p : Member Float P, p.Numeric nVar nObj →
        let answer := front.offer p.x p.f p.product
        (answer.entered = true ↔
          ¬∃ m ∈ offered calls, dominates m.f p.f = true ∨ m.same p = true) ∧
        answer.front.members.toList =
          if answer.entered then front.members.toList.filter (fun m => !dominates p.f m.f) ++ [p]
          else front.members.toList := by
  intro front
  have kept : Keeps (offered calls) front := keeps_calls calls (keeps_empty nVar nObj) numeric
  refine ⟨kept.members, fun p hp => ?_⟩
  intro answer
  have barred : front.members.any (bars · p.x p.f) = true ↔
      ∃ m ∈ offered calls, dominates m.f p.f = true ∨ m.same p = true := by
    rw [← barred_iff numeric p, ← kept.members, ← Array.any_toList, List.any_eq_true]
    simp [bars, Member.same]
  have answered : answer = _ := offer_unlimited kept.unlimited p.x p.f p.product
  by_cases hbarred : front.members.any (bars · p.x p.f) = true
  · rw [if_pos hbarred] at answered
    simp [answered, barred.mp hbarred]
  · rw [if_neg hbarred] at answered
    have free := mt barred.mpr hbarred
    simp [answered, free]

/-- A point, a batch whose second row is dominated by its first, and the first point once more. -/
theorem unlimited_front_exact_mixed :
    let calls : List (Call Float Nat) :=
      [.one #[0.5] #[1.0, 2.0] (some 1),
        .many #[#[0.25], #[0.75]] #[#[2.0, 1.0], #[3.0, 1.0]] (some #[some 2, none])]
    let front := calls.foldl Call.run (empty 1 2 none)
    (∀ m ∈ offered calls, m.Numeric 1 2) ∧ front.members.toList = maximal (offered calls) ∧
      front.members.toList.map (·.product) = [some 1, some 2] ∧
      (front.offer #[0.5] #[1.0, 2.0] none).entered = false := by
  intro calls front
  have numeric : ∀ m ∈ offered calls, m.Numeric 1 2 := by decide +kernel
  obtain ⟨members, offers⟩ := unlimited_front_exact 1 2 calls numeric
  refine ⟨numeric, members, ?_, ?_⟩
  · rw [members]
    decide +kernel
  · have accepted := (offers ⟨#[0.5], #[1.0, 2.0], none⟩ (by decide +kernel)).1
    rw [Bool.eq_false_iff, Ne, accepted, not_not]
    decide +kernel

end Front

end BoxSearch
