import BoxSearch.Proofs.Archive.Tracker

/-!
A tracker holds nothing that it was not offered.

Point, fitness and payload of what it holds stay together: they are those of one row of one batch.
An incumbent keeps the first objective only, which is the whole fitness if there is a single one.
-/

namespace BoxSearch

variable {α P : Type} [Scalar α]

theorem Scalar.argMin?_lt {xs : Array α} {i : Nat} (h : argMin? xs = some i) : i < xs.size := by
  have found (n : Nat) : ∀ b, (List.range n).foldl (leastStep xs) none = some b → b < n := by
    induction n with
    | zero =>
      intro b hb
      cases hb
    | succ n ih =>
      intro b hb
      rw [List.range_succ, List.foldl_append, List.foldl_cons, List.foldl_nil] at hb
      cases before : (List.range n).foldl (leastStep xs) none with
      | none =>
        rw [before] at hb
        cases hb
        omega
      | some c =>
        have earlier := ih c before
        rw [before] at hb
        simp only [leastStep] at hb
        split at hb
        · cases hb
          omega
        · split at hb
          · cases hb
            omega
          · cases hb
            omega
  exact found xs.size i h

namespace Front

/-- A front gives up members, but makes none. -/
theorem mem_truncate {s : Front α P} {m : Member α P} (h : m ∈ s.truncate.1.members) :
    m ∈ s.members := by
  rw [truncate] at h
  split at h
  case h_1 limit _ =>
    split at h
    case isTrue =>
      split at h
      case h_1 i _ =>
        change m ∈ s.members.eraseIdxIfInBounds i at h
        rw [Array.eraseIdxIfInBounds] at h
        split at h
        case isTrue => exact Array.mem_of_mem_eraseIdx h
        case isFalse => exact h
      case h_2 => exact h
    case isFalse => exact h
  case h_2 => exact h

/-- After an offer a front holds nothing but what it held before and the point offered. -/
theorem mem_offer {s : Front α P} {m n : Member α P}
    (h : m ∈ (s.offer n.x n.f n.product).front.members) : m ∈ s.members ∨ m = n := by
  rw [offer] at h
  by_cases barred : s.members.any (bars · n.x n.f) = true
  · rw [if_pos barred] at h
    exact .inl h
  · rw [if_neg barred] at h
    have entered := mem_truncate h
    rcases Array.mem_push.mp entered with kept | new
    · exact .inl (Array.mem_filter.mp kept).1
    · exact .inr new

end Front

namespace Tracker

/-- What a tracker holds. The fitness of an incumbent is a single number. -/
def held : Tracker α P → List (Member α P)
  | single s => s.point.toList.map fun x => ⟨x, #[s.fitness], s.product⟩
  | several s => s.members.toList

/-- The point has as many objectives as the tracker is made for: one for an incumbent. -/
def Suits (t : Tracker α P) (m : Member α P) : Prop :=
  match t with
  | single _ => m.f.size = 1
  | several _ => True

theorem suits_take {t : Tracker α P} {m n : Member α P} : (t.take n).Suits m ↔ t.Suits m := by
  cases t <;> exact Iff.rfl

theorem held_take {t : Tracker α P} {m n : Member α P} (suits : t.Suits n)
    (h : m ∈ (t.take n).held) : m ∈ t.held ∨ m = n := by
  cases t with
  | several s =>
    have offered := Array.mem_toList_iff.mp h
    rcases Front.mem_offer offered with before | new
    · exact .inl (Array.mem_toList_iff.mpr before)
    · exact .inr new
  | single s =>
    have whole : n.f = #[n.f.gene 0] := by
      have size : n.f.size = 1 := suits
      apply Array.ext (by simp [size])
      intro i hi _
      have first : i = 0 := by omega
      subst first
      simp [Row.gene, size]
    rw [take, Incumbent.take_eq] at h
    by_cases better : s.point.isNone = true ∨ n.f.gene 0 < s.fitness
    · rw [if_pos better] at h
      have new : m = ⟨n.x, #[n.f.gene 0], n.product⟩ := by simpa [held] using h
      rw [← whole] at new
      exact .inr new
    · rw [if_neg better] at h
      exact .inl h

theorem held_foldl_take {t : Tracker α P} {ms : List (Member α P)} (suits : ∀ n ∈ ms, t.Suits n)
    {m : Member α P} (h : m ∈ (ms.foldl take t).held) : m ∈ t.held ∨ m ∈ ms := by
  induction ms generalizing t with
  | nil => exact .inl h
  | cons n ms ih =>
    have suitsRest : ∀ k ∈ ms, (t.take n).Suits k := by
      intro k hk
      exact suits_take.mpr (suits k (List.mem_cons_of_mem _ hk))
    rcases ih suitsRest h with before | later
    · rcases held_take (suits n List.mem_cons_self) before with earlier | here
      · exact .inl earlier
      · exact .inr (here ▸ List.mem_cons_self)
    · exact .inr (List.mem_cons_of_mem _ later)

/-- After a batch a tracker holds nothing but what it held before and rows of the batch. -/
theorem held_fold {t : Tracker α P} {b : Batch α P} (size : b.F.size = b.X.size)
    (suits : ∀ n ∈ b.members, t.Suits n) {m : Member α P} (h : m ∈ (t.fold b).1.held) :
    m ∈ t.held ∨ m ∈ b.members := by
  cases t with
  | several s =>
    have points : b.members.map (fun m => (m.x, m.f, m.product)) = b.points := by
      simp [Batch.members, Batch.points]
    have folded : ((several s).fold b).1 = b.members.foldl take (several s) := by
      rw [foldl_take_several, points]
      rfl
    rw [folded] at h
    exact held_foldl_take suits h
  | single s =>
    rw [fold, Incumbent.offerBatch] at h
    cases least : Scalar.argMin? (b.F.column 0) with
    | none =>
      rw [least] at h
      exact .inl h
    | some i =>
      rw [least] at h
      have inside : i < b.X.size := by
        have below := Scalar.argMin?_lt least
        rw [Rows.column, Array.size_map] at below
        omega
      have member : ⟨b.X.row i, b.F.row i, b.product i⟩ ∈ b.members :=
        List.mem_map.mpr ⟨i, List.mem_range.mpr inside, rfl⟩
      have taken := held_take (t := single s) (suits _ member) h
      rcases taken with before | here
      · exact .inl before
      · exact .inr (here ▸ member)

theorem suits_fold {t : Tracker α P} {b : Batch α P} {m : Member α P} :
    (t.fold b).1.Suits m ↔ t.Suits m := by
  cases t <;> exact Iff.rfl

theorem suits_foldAll {t : Tracker α P} {batches : Array (Batch α P)} {m : Member α P} :
    (t.foldAll batches).Suits m ↔ t.Suits m := by
  obtain ⟨batches⟩ := batches
  rw [foldAll, List.foldl_toArray]
  induction batches generalizing t with
  | nil => exact Iff.rfl
  | cons b batches ih => exact ih.trans suits_fold

/-- A tracker at the start of a run holds nothing. -/
theorem held_start {dim width : Nat} {limit : Value} {fresh : Tracker α P}
    (h : Tracker.start dim width limit = .ok fresh) :
    fresh.held = [] ∧ ∀ m : Member α P, m.f.size = width → fresh.Suits m := by
  rw [Tracker.start] at h
  by_cases one : (width == 1) = true
  · rw [if_pos one] at h
    cases h
    refine ⟨rfl, fun m hm => ?_⟩
    have width_eq : width = 1 := by simpa using one
    exact hm.trans width_eq
  · rw [if_neg one] at h
    cases hlimit : Front.limitOf limit with
    | error e =>
      rw [hlimit] at h
      cases h
    | ok limit =>
      rw [hlimit] at h
      cases h
      exact ⟨rfl, fun _ _ => trivial⟩

/-- After several batches a tracker holds nothing but what it held before and rows of theirs. -/
theorem held_foldAll {t : Tracker α P} {batches : Array (Batch α P)}
    (size : ∀ b ∈ batches, b.F.size = b.X.size)
    (suits : ∀ b ∈ batches, ∀ n ∈ b.members, t.Suits n) {m : Member α P}
    (h : m ∈ (t.foldAll batches).held) : m ∈ t.held ∨ ∃ b ∈ batches, m ∈ b.members := by
  obtain ⟨batches⟩ := batches
  rw [foldAll, List.foldl_toArray] at h
  simp only [List.mem_toArray] at size suits ⊢
  induction batches generalizing t with
  | nil => exact .inl h
  | cons b batches ih =>
    have sizeRest : ∀ c ∈ batches, c.F.size = c.X.size :=
      fun c hc => size c (List.mem_cons_of_mem _ hc)
    have suitsRest : ∀ c ∈ batches, ∀ n ∈ c.members, (t.fold b).1.Suits n := by
      intro c hc n hn
      exact suits_fold.mpr (suits c (List.mem_cons_of_mem _ hc) n hn)
    rcases ih h sizeRest suitsRest with before | ⟨c, hc, later⟩
    · rcases held_fold (size b List.mem_cons_self) (suits b List.mem_cons_self) before with
        earlier | here
      · exact .inl earlier
      · exact .inr ⟨b, List.mem_cons_self, here⟩
    · exact .inr ⟨c, List.mem_cons_of_mem _ hc, later⟩

end Tracker

end BoxSearch
