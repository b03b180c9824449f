import BoxSearch.Proofs.Archive.Held
import BoxSearch.Proofs.Archive.Limited
import BoxSearch.Proofs.Except
import BoxSearch.Run.Basic

/-!
A tracker never loses its last point.

An incumbent is replaced but never removed, and the members of a front leave only for a new one. A
front that gives up a member for its limit keeps as many as the limit allows, and the limit is
positive.
-/

namespace BoxSearch

variable {α P : Type} [Scalar α]

namespace Front

/-- The limit of the front, if it has one, leaves room for a member. -/
def Roomy (s : Front α P) : Prop :=
  ∀ limit, s.limit = some limit → 0 < limit

/-- A limit that is read from a value is positive. -/
theorem roomy_of_limitOf {v : Value} {limit : Nat} (h : limitOf v = .ok (some limit)) :
    0 < limit := by
  unfold limitOf at h
  split at h
  · cases h
  · obtain ⟨n, -, h⟩ := of_bind h
    split at h
    · cases h
    · cases h
      omega

/-- A positive number is read as a limit. -/
theorem limitOf_nat {n : Nat} (positive : 0 < n) : limitOf (.int n) = .ok (some n) := by
  have above : ¬(n : Int) ≤ 0 := by omega
  have read : limitOf (.int n) =
      if (n : Int) ≤ 0 then .error (.misuse .frontLimit) else .ok (some (n : Int).toNat) := rfl
  rw [read, if_neg above]
  rfl

@[simp]
theorem limit_truncate (s : Front α P) : s.truncate.1.limit = s.limit := by
  rw [truncate]
  split
  · split
    · split <;> rfl
    · rfl
  · rfl

@[simp]
theorem limit_offer (s : Front α P) (x f : Row α) (product : Option P) :
    (s.offer x f product).front.limit = s.limit := by
  rw [offer]
  split
  · rfl
  · exact limit_truncate _

theorem nonempty_truncate {s : Front α P} (roomy : s.Roomy) (h : 0 < s.members.size) :
    0 < s.truncate.1.members.size := by
  rw [truncate]
  split
  case h_1 limit limited =>
    have room := roomy limit limited
    split
    case isTrue excess =>
      split
      case h_1 i _ =>
        have many : limit < s.members.size := excess
        change 0 < (s.members.eraseIdxIfInBounds i).size
        rw [Array.size_eraseIdxIfInBounds]
        split <;> omega
      case h_2 => exact h
    case isFalse => exact h
  case h_2 => exact h

/-- A front is not empty after an offer, whether the point entered or not. -/
theorem nonempty_offer {s : Front α P} (roomy : s.Roomy) (x f : Row α) (product : Option P) :
    0 < (s.offer x f product).front.members.size := by
  rw [offer]
  by_cases barred : s.members.any (bars · x f) = true
  · rw [if_pos barred]
    obtain ⟨i, hi, _⟩ := Array.any_eq_true.mp barred
    exact Nat.lt_of_le_of_lt (Nat.zero_le i) hi
  · rw [if_neg barred]
    exact nonempty_truncate roomy (by simp)

theorem limit_offers (t : Tally α P) (points : List (Row α × Row α × Option P)) :
    (points.foldl Tally.offer t).front.limit = t.front.limit := by
  induction points generalizing t with
  | nil => rfl
  | cons point points ih => exact (ih (t.offer point)).trans (limit_offer _ _ _ _)

/-- After several offers a front is not empty, unless there was no offer and it was empty. -/
theorem nonempty_offers {t : Tally α P} (roomy : t.front.Roomy)
    {points : List (Row α × Row α × Option P)} (h : 0 < t.front.members.size ∨ points ≠ []) :
    0 < (points.foldl Tally.offer t).front.members.size := by
  induction points generalizing t with
  | nil => exact h.resolve_right fun none => none rfl
  | cons point points ih =>
    have roomy' : (t.offer point).front.Roomy := by
      intro limit limited
      exact roomy limit ((limit_offer _ _ _ _).symm.trans limited)
    exact ih roomy' (.inl (nonempty_offer roomy _ _ _))

/-- A front that is not empty has a representative. -/
theorem exists_representative {s : Front α P} (h : 0 < s.members.size) :
    ∃ m, s.representative = .ok m := by
  have totals : 0 < (s.F.map Scalar.total).size := by simpa [F] using h
  obtain ⟨i, least⟩ := exists_argMin totals
  have inside : i < s.members.size := by simpa [F] using Scalar.argMin?_lt least
  exact ⟨s.members[i], by simp [representative, least, inside]⟩

end Front

namespace Tracker

/-- A front is there only if the number of objectives is not one, and its limit leaves room. -/
def Roomy (width : Nat) (t : Tracker α P) : Prop :=
  ∀ front, t = .several front → width ≠ 1 ∧ front.Roomy

/-- The tracker holds a point, and if it is a front then it will not give up all of them. -/
structure Lasting (width : Nat) (t : Tracker α P) : Prop where
  hasBest : t.hasBest = true
  roomy : t.Roomy width

theorem roomy_start {dim width : Nat} {limit : Value} {t : Tracker α P}
    (h : Tracker.start dim width limit = .ok t) : t.Roomy width := by
  rintro front rfl
  rw [start] at h
  split at h
  · cases h
  · rename_i several
    refine ⟨by simpa using several, ?_⟩
    cases read : Front.limitOf limit with
    | error e =>
      rw [read] at h
      cases h
    | ok l =>
      rw [read] at h
      cases h
      intro limit hlimit
      obtain rfl : l = some limit := hlimit
      exact Front.roomy_of_limitOf read

theorem roomy_fold {t : Tracker α P} {width : Nat} (roomy : t.Roomy width) (b : Batch α P) :
    (t.fold b).1.Roomy width := by
  intro front same
  cases t with
  | single s => cases same
  | several s =>
    cases same
    refine ⟨(roomy s rfl).1, fun limit limited => ?_⟩
    exact (roomy s rfl).2 limit ((Front.limit_offers ⟨s, 0, []⟩ b.points).symm.trans limited)

/-- After a batch a tracker is lasting if it was before, or if the batch has rows. -/
theorem lasting_fold {t : Tracker α P} {width : Nat} (roomy : t.Roomy width)
    (b : Batch α P) (h : t.hasBest = true ∨ (0 < b.X.size ∧ b.F.size = b.X.size)) :
    (t.fold b).1.Lasting width := by
  refine ⟨?_, roomy_fold roomy b⟩
  cases t with
  | single s =>
    change (s.offerBatch b.X b.F b.product).2.point.isSome = true
    rw [Incumbent.offerBatch]
    cases least : Scalar.argMin? (b.F.column 0) with
    | none =>
      rcases h with held | ⟨filled, size⟩
      · exact held
      · have column : 0 < (b.F.column 0).size := by simpa [Rows.column, size] using filled
        obtain ⟨i, found⟩ := Front.exists_argMin column
        rw [found] at least
        cases least
    | some i =>
      dsimp only [Incumbent.offer]
      split
      case isTrue => rfl
      case isFalse kept =>
        simp only [Bool.or_eq_true, not_or, Option.isNone_iff_eq_none] at kept
        exact Option.isSome_iff_ne_none.mpr kept.1
  | several s =>
    have offered : 0 < s.members.size ∨ b.points ≠ [] := by
      rcases h with held | ⟨filled, _⟩
      · left
        simpa [hasBest, Array.isEmpty, Nat.pos_iff_ne_zero] using held
      · right
        apply List.ne_nil_of_length_pos
        simpa [Batch.points] using filled
    have nonempty : 0 < (s.offerAll b.points).front.members.size :=
      Front.nonempty_offers (t := ⟨s, 0, []⟩) (roomy s rfl).2 offered
    change (!(s.offerAll b.points).front.members.isEmpty) = true
    simpa [Array.isEmpty, Nat.pos_iff_ne_zero] using nonempty

theorem lasting_foldAll {t : Tracker α P} {width : Nat} (roomy : t.Roomy width)
    {batches : Array (Batch α P)}
    (h : t.hasBest = true ∨ ∃ b ∈ batches, 0 < b.X.size ∧ b.F.size = b.X.size) :
    (t.foldAll batches).Lasting width := by
  obtain ⟨batches⟩ := batches
  simp only [foldAll, List.foldl_toArray, List.mem_toArray] at h ⊢
  induction batches generalizing t with
  | nil => exact ⟨h.resolve_right (by simp), roomy⟩
  | cons b batches ih =>
    have roomy' := roomy_fold roomy b
    rcases h with held | ⟨c, hc, filled⟩
    · exact ih roomy' (.inl (lasting_fold roomy b (.inl held)).hasBest)
    · rcases List.mem_cons.mp hc with rfl | later
      · exact ih roomy' (.inl (lasting_fold roomy c (.inr filled)).hasBest)
      · exact ih roomy' (.inr ⟨c, later, filled⟩)

end Tracker

namespace Run

/-- A run whose tracker holds a point has a best point with its fitness. -/
theorem exists_best {run : Run α P} (h : run.hasBest = true) :
    (∃ x, run.bestX = .ok x) ∧ ∃ f, run.bestF = .ok f := by
  cases tracked : run.tracker with
  | none =>
    rw [hasBest, tracked] at h
    cases h
  | some t =>
    rw [hasBest, tracked] at h
    cases t with
    | single s =>
      obtain ⟨x, point⟩ := Option.isSome_iff_exists.mp (h : s.point.isSome = true)
      have noFront : run.front? = none := by simp [front?, tracked, Tracker.front?]
      have known : run.incumbent? = some (x, s.fitness, s.product) := by
        simp [incumbent?, tracked, point]
      exact ⟨⟨x, by simp [bestX, noFront, known]⟩,
        ⟨.number s.fitness, by simp [bestF, noFront, known]⟩⟩
    | several s =>
      have nonempty : 0 < s.members.size := by
        simpa [Tracker.hasBest, Array.isEmpty, Nat.pos_iff_ne_zero] using h
      obtain ⟨m, chosen⟩ := Front.exists_representative nonempty
      have front : run.front? = some s := by simp [front?, tracked, Tracker.front?]
      exact ⟨⟨m.x, by simp [bestX, front, chosen, Except.map]⟩,
        ⟨.vector m.f, by simp [bestF, front, chosen, Except.map]⟩⟩

/-- A best point comes with what the objective returned beside its fitness, if anything. -/
theorem exists_bestProduct {run : Run α P} {x : Row α} (h : run.bestX = .ok x) :
    ∃ product, run.bestProduct = .ok product := by
  unfold bestX at h
  unfold bestProduct
  cases front : run.front? with
  | some s =>
    rw [front] at h
    dsimp only at h ⊢
    cases found : s.representative with
    | ok m => exact ⟨m.product, rfl⟩
    | error e =>
      rw [found] at h
      cases h
  | none =>
    rw [front] at h
    cases known : run.incumbent? with
    | some best => exact ⟨best.2.2, rfl⟩
    | none =>
      rw [known] at h
      cases h

end Run

end BoxSearch
