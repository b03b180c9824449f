import BoxSearch.Archive.Front
import BoxSearch.Proofs.Dominance

/-!
The points of a history that deserve a place on a front without a limit.

`maximal` says it without any bookkeeping: of all points offered so far, those that none of them
dominates, each numerically distinct one where it was first offered. The main statement,
`maximal_concat`, says what one more point changes, and asks only the maximal points so far.
-/

namespace BoxSearch

open Dominance

variable {α P : Type} [Scalar α]

/-- Two points are numerically equal in parameters and fitness. Payloads do not count. -/
def Member.same (m n : Member α P) : Bool :=
  m.f.same n.f && m.x.same n.x

/-- A point of given widths whose entries are all numbers. -/
structure Member.Numeric (nVar nObj : Nat) (m : Member α P) : Prop where
  sizeX : m.x.size = nVar
  sizeF : m.f.size = nObj
  numericX : m.x.Numeric
  numericF : m.f.Numeric

instance (nVar nObj : Nat) (m : Member α P) : Decidable (m.Numeric nVar nObj) :=
  decidable_of_iff (m.x.size = nVar ∧ m.f.size = nObj ∧ m.x.Numeric ∧ m.f.Numeric)
    ⟨fun h => ⟨h.1, h.2.1, h.2.2.1, h.2.2.2⟩,
      fun h => ⟨h.sizeX, h.sizeF, h.numericX, h.numericF⟩⟩

/-- The points of a history, each numerically distinct one where it was first offered. -/
def firstOffers : List (Member α P) → List (Member α P)
  | [] => []
  | m :: rest => m :: (firstOffers rest).filter fun n => !m.same n

/-- Some point of a history dominates the fitness `f`. -/
def dominatedBy (history : List (Member α P)) (f : Row α) : Bool :=
  history.any fun n => dominates n.f f

/-- The points of a history that none of its points dominates, in the order of their first
offers. -/
def maximal (history : List (Member α P)) : List (Member α P) :=
  (firstOffers history).filter fun m => !dominatedBy history m.f

theorem dominatedBy_iff {history : List (Member α P)} {f : Row α} :
    dominatedBy history f = true ↔ ∃ n ∈ history, dominates n.f f = true := by
  simp [dominatedBy]

theorem dominatedBy_concat (history : List (Member α P)) (p : Member α P) (f : Row α) :
    dominatedBy (history ++ [p]) f = (dominatedBy history f || dominates p.f f) := by
  simp [dominatedBy]

theorem firstOffers_concat (history : List (Member α P)) (p : Member α P) :
    firstOffers (history ++ [p]) =
      firstOffers history ++ if history.any (·.same p) then [] else [p] := by
  induction history with
  | nil => rfl
  | cons m rest ih =>
    simp only [List.cons_append, firstOffers, ih, List.filter_append, List.any_cons]
    by_cases hrest : rest.any (·.same p) = true
    · simp [hrest]
    · by_cases hm : m.same p = true
      · simp [hrest, hm]
      · simp [hrest, hm]

theorem mem_of_mem_firstOffers {history : List (Member α P)} {m : Member α P}
    (h : m ∈ firstOffers history) : m ∈ history := by
  induction history with
  | nil => exact h
  | cons n rest ih =>
    simp only [firstOffers, List.mem_cons, List.mem_filter] at h
    rcases h with rfl | ⟨hm, _⟩
    · exact List.mem_cons_self
    · exact List.mem_cons_of_mem _ (ih hm)

theorem mem_maximal {history : List (Member α P)} {m : Member α P} :
    m ∈ maximal history ↔ m ∈ firstOffers history ∧ dominatedBy history m.f = false := by
  simp [maximal]

variable [OrderedScalar α] {nVar nObj : Nat} {history : List (Member α P)}

theorem Member.same_self {m : Member α P} (h : m.Numeric nVar nObj) : m.same m = true := by
  rw [Member.same, Row.same_self h.numericF, Row.same_self h.numericX]
  rfl

theorem Member.same_trans {l m n : Member α P} (hlm : l.same m = true) (hmn : m.same n = true) :
    l.same n = true := by
  simp only [Member.same, Bool.and_eq_true] at hlm hmn ⊢
  exact ⟨Row.same_trans hlm.1 hmn.1, Row.same_trans hlm.2 hmn.2⟩

/-- Every point of a history has a numerically equal one among the first offers. -/
theorem exists_firstOffer (numeric : ∀ m ∈ history, m.Numeric nVar nObj) {p : Member α P}
    (hp : p ∈ history) : ∃ m ∈ firstOffers history, m.same p = true := by
  induction history with
  | nil => cases hp
  | cons n rest ih =>
    rcases List.mem_cons.mp hp with rfl | hrest
    · exact ⟨p, List.mem_cons_self, Member.same_self (numeric p List.mem_cons_self)⟩
    · obtain ⟨m, hm, hmp⟩ := ih (fun m h => numeric m (List.mem_cons_of_mem _ h)) hrest
      by_cases hnm : n.same m = true
      · exact ⟨n, List.mem_cons_self, Member.same_trans hnm hmp⟩
      · refine ⟨m, List.mem_cons_of_mem _ ?_, hmp⟩
        simpa [hm] using hnm

/-- Whatever is dominated at all is dominated by a point that nothing dominates. -/
theorem exists_undominated (size : ∀ m ∈ history, m.f.size = nObj) {f : Row α}
    (h : dominatedBy history f = true) :
    ∃ m ∈ history, dominates m.f f = true ∧ dominatedBy history m.f = false := by
  induction history with
  | nil => cases h
  | cons q rest ih =>
    have sizeQ : q.f.size = nObj := size q List.mem_cons_self
    have sizeRest : ∀ m ∈ rest, m.f.size = nObj := fun m hm => size m (List.mem_cons_of_mem _ hm)
    have trans {m : Member α P} {g : Row α} (hm : m ∈ rest) (hmq : dominates m.f q.f = true)
        (hqg : dominates q.f g = true) : dominates m.f g = true :=
      dominates_trans ((sizeRest m hm).trans sizeQ.symm) hmq hqg
    -- the first point of the history is maximal unless the rest dominates it
    have first {g : Row α} (hqg : dominates q.f g = true) (hg : dominatedBy rest g = false) :
        dominatedBy (q :: rest) q.f = false := by
      simp only [dominatedBy, List.any_cons, dominates_irrefl, Bool.false_or, List.any_eq_false,
        Bool.not_eq_true] at hg ⊢
      intro m hm
      rw [Bool.eq_false_iff]
      intro hmq
      exact absurd (trans hm hmq hqg) (by simp [hg m hm])
    by_cases hrest : dominatedBy rest f = true
    · obtain ⟨m, hm, hmf, hfree⟩ := ih sizeRest hrest
      by_cases hqm : dominates q.f m.f = true
      · have hqf : dominates q.f f = true :=
          dominates_trans (sizeQ.trans (sizeRest m hm).symm) hqm hmf
        exact ⟨q, List.mem_cons_self, hqf, first hqm hfree⟩
      · refine ⟨m, List.mem_cons_of_mem _ hm, hmf, ?_⟩
        rw [dominatedBy, List.any_cons, Bool.or_eq_false_iff]
        exact ⟨by simpa using hqm, hfree⟩
    · have hqf : dominates q.f f = true := by
        rw [dominatedBy, List.any_cons, Bool.or_eq_true] at h
        exact h.resolve_right hrest
      exact ⟨q, List.mem_cons_self, hqf, first hqf (by simpa using hrest)⟩

/-- Every point of a history is dominated by a maximal point or numerically equal to one. -/
theorem exists_maximal (numeric : ∀ m ∈ history, m.Numeric nVar nObj) {p : Member α P}
    (hp : p ∈ history) : ∃ m ∈ maximal history, dominates m.f p.f = true ∨ m.same p = true := by
  -- a first offer equal to an undominated point is undominated itself
  have pick {q : Member α P} (hq : q ∈ history) (free : dominatedBy history q.f = false) :
      ∃ m ∈ maximal history, m.same q = true := by
    obtain ⟨m, hm, hmq⟩ := exists_firstOffer numeric hq
    refine ⟨m, mem_maximal.mpr ⟨hm, ?_⟩, hmq⟩
    rw [Bool.eq_false_iff]
    intro hdom
    obtain ⟨n, hn, hnm⟩ := dominatedBy_iff.mp hdom
    have size : n.f.size = m.f.size :=
      (numeric n hn).sizeF.trans (numeric m (mem_of_mem_firstOffers hm)).sizeF.symm
    have hnq : dominates n.f q.f = true :=
      dominates_of_dominates_of_same size hnm (Bool.and_eq_true_iff.mp hmq).1
    exact absurd (dominatedBy_iff.mpr ⟨n, hn, hnq⟩) (by simp [free])
  by_cases hdom : dominatedBy history p.f = true
  · obtain ⟨q, hq, hqp, free⟩ := exists_undominated (fun m hm => (numeric m hm).sizeF) hdom
    obtain ⟨m, hm, hmq⟩ := pick hq free
    exact ⟨m, hm, .inl (dominates_of_same_of_dominates (Bool.and_eq_true_iff.mp hmq).1 hqp)⟩
  · obtain ⟨m, hm, hmp⟩ := pick hp (by simpa using hdom)
    exact ⟨m, hm, .inr hmp⟩

/-- Whether a new point is dominated by, or equal to, any point so far can be told from the maximal
points alone. -/
theorem barred_iff (numeric : ∀ m ∈ history, m.Numeric nVar nObj) (p : Member α P) :
    (∃ m ∈ maximal history, dominates m.f p.f = true ∨ m.same p = true) ↔
      ∃ n ∈ history, dominates n.f p.f = true ∨ n.same p = true := by
  constructor
  · rintro ⟨m, hm, h⟩
    exact ⟨m, mem_of_mem_firstOffers (mem_maximal.mp hm).1, h⟩
  · rintro ⟨n, hn, h⟩
    obtain ⟨m, hm, hmn⟩ := exists_maximal numeric hn
    have size : m.f.size = n.f.size :=
      (numeric m (mem_of_mem_firstOffers (mem_maximal.mp hm).1)).sizeF.trans
        (numeric n hn).sizeF.symm
    refine ⟨m, hm, ?_⟩
    rcases hmn with hmn | hmn <;> rcases h with h | h
    · exact .inl (dominates_trans size hmn h)
    · exact .inl (dominates_of_dominates_of_same size hmn (Bool.and_eq_true_iff.mp h).1)
    · exact .inl (dominates_of_same_of_dominates (Bool.and_eq_true_iff.mp hmn).1 h)
    · exact .inr (Member.same_trans hmn h)

/-- A point that a maximal point dominates or equals dominates no maximal point. -/
theorem not_dominates_of_barred (numeric : ∀ m ∈ history, m.Numeric nVar nObj) {p m n : Member α P}
    (sizeP : p.f.size = nObj) (hm : m ∈ maximal history)
    (barred : dominates m.f p.f = true ∨ m.same p = true) (hn : n ∈ maximal history) :
    dominates p.f n.f = false := by
  rw [Bool.eq_false_iff]
  intro hpn
  have memberM : m ∈ history := mem_of_mem_firstOffers (mem_maximal.mp hm).1
  have hmn : dominates m.f n.f = true := by
    rcases barred with h | h
    · exact dominates_trans ((numeric m memberM).sizeF.trans sizeP.symm) h hpn
    · exact dominates_of_same_of_dominates (Bool.and_eq_true_iff.mp h).1 hpn
  exact absurd (dominatedBy_iff.mpr ⟨m, memberM, hmn⟩) (by simp [(mem_maximal.mp hn).2])

/-- One more point changes nothing if a maximal point dominates or equals it. Otherwise it becomes
the last maximal point, and those that it dominates are maximal no longer. -/
theorem maximal_concat (numeric : ∀ m ∈ history, m.Numeric nVar nObj) {p : Member α P}
    (sizeP : p.f.size = nObj) :
    maximal (history ++ [p]) =
      if (maximal history).any fun m => dominates m.f p.f || m.same p then maximal history
      else (maximal history).filter (fun m => !dominates p.f m.f) ++ [p] := by
  have parts : maximal (history ++ [p]) =
      (maximal history).filter (fun m => !dominates p.f m.f) ++
        (if history.any (·.same p) then [] else [p]).filter
          fun m => !dominatedBy (history ++ [p]) m.f := by
    simp only [maximal, firstOffers_concat, List.filter_append, List.filter_filter,
      dominatedBy_concat, Bool.not_or, Bool.and_comm]
  by_cases barred : ((maximal history).any fun m => dominates m.f p.f || m.same p) = true
  · rw [if_pos barred, parts]
    obtain ⟨m, hm, h⟩ : ∃ m ∈ maximal history, dominates m.f p.f = true ∨ m.same p = true := by
      simpa using barred
    have memberM : m ∈ history := mem_of_mem_firstOffers (mem_maximal.mp hm).1
    have kept : (maximal history).filter (fun m => !dominates p.f m.f) = maximal history := by
      apply List.filter_eq_self.mpr
      intro n hn
      simp [not_dominates_of_barred numeric sizeP hm h hn]
    have dropped : (if history.any (·.same p) then [] else [p]).filter
        (fun m => !dominatedBy (history ++ [p]) m.f) = [] := by
      rcases h with h | h
      · have dominated : dominatedBy history p.f = true := dominatedBy_iff.mpr ⟨m, memberM, h⟩
        split <;> simp [dominatedBy_concat, dominated]
      · have seen : history.any (·.same p) = true := List.any_eq_true.mpr ⟨m, memberM, h⟩
        simp [seen]
    rw [kept, dropped, List.append_nil]
  · rw [if_neg barred, parts]
    have free : ¬∃ n ∈ history, dominates n.f p.f = true ∨ n.same p = true := by
      rw [← barred_iff numeric p]
      simpa using barred
    have unseen : ¬history.any (·.same p) = true := by
      intro h
      obtain ⟨n, hn, hnp⟩ := List.any_eq_true.mp h
      exact free ⟨n, hn, .inr hnp⟩
    have undominated : dominatedBy (history ++ [p]) p.f = false := by
      rw [dominatedBy_concat, dominates_irrefl, Bool.or_false, Bool.eq_false_iff]
      intro h
      obtain ⟨n, hn, hnp⟩ := dominatedBy_iff.mp h
      exact free ⟨n, hn, .inl hnp⟩
    rw [if_neg unseen]
    simp [undominated]

end BoxSearch
