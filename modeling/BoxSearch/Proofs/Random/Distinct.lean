import BoxSearch.Proofs.Random
import BoxSearch.Proofs.Random.Range
import BoxSearch.Proofs.Tensor
import BoxSearch.Random.Draw
import Mathlib.Data.Set.Function
import Mathlib.Probability.Distributions.Uniform

/-!
Distinct indices.

A selection has no number twice: either it is a part of a shuffled range, or it grows by one number
at a time, where a number that is in it already is replaced by one that is larger than all of it.
Where an index is left out, the selection is from a range that is shorter by one, and stepping over
the gap is a bijection onto the indices that remain. So nothing is lost of how even a selection is.
-/

namespace BoxSearch

/-- Arrays of `k` members of a set, none of them twice. -/
def Tuples (k : Nat) (S : Finset Nat) : Set (Array Nat) :=
  {xs | xs.size = k ∧ xs.toList.Nodup ∧ ∀ x ∈ xs, x ∈ S}

namespace Random

/-- The part of a shuffled range from a place on. -/
theorem selectTail_mem {pool count : Nat} (enough : count ≤ pool) (g : Generator) :
    (selectTail pool count g).1 ∈ Tuples count (Finset.range pool) := by
  let places := (descending pool).filter (max (pool - count) 1 ≤ ·)
  let swapped := places.foldl (fun (acc : Array Nat × Generator) i =>
    (acc.1.swapIfInBounds i (upTo i acc.2).1, (upTo i acc.2).2)) (Array.range pool, g)
  have perm : swapped.1.Perm (Array.range pool) := perm_swaps upTo places (Array.range pool, g)
  have size : swapped.1.size = pool := perm.size_eq.trans Array.size_range
  have nodup : swapped.1.toList.Nodup := by
    rw [perm.toList.nodup_iff, Array.toList_range]
    exact List.nodup_range
  change swapped.1.extract (pool - count) pool ∈ Tuples count (Finset.range pool)
  refine ⟨?_, ?_, fun x hx => ?_⟩
  · rw [Array.size_extract, size]
    omega
  · rw [Array.toList_extract]
    exact nodup.sublist ((List.take_sublist _ _).trans (List.drop_sublist _ _))
  · have inside := mem_of_mem_extract hx
    rw [perm.mem_iff, Array.mem_range] at inside
    exact Finset.mem_range.mpr inside

/-- One more number makes a selection from a range one from the next range. -/
theorem selectNext_mem {chosen : Array Nat × Generator} {k top : Nat}
    (h : chosen.1 ∈ Tuples k (Finset.range top)) :
    (selectNext chosen top).1 ∈ Tuples (k + 1) (Finset.range (top + 1)) := by
  obtain ⟨size, nodup, inside⟩ := h
  let drawn := (upTo top chosen.2).1
  obtain ⟨v, pushed, fresh, least⟩ :
      ∃ v, (selectNext chosen top).1 = chosen.1.push v ∧ v ∉ chosen.1 ∧ v ≤ top := by
    refine ⟨if chosen.1.contains drawn then top else drawn, rfl, ?_⟩
    split
    case isTrue =>
      exact ⟨fun again => absurd (inside top again) Finset.notMem_range_self, le_rfl⟩
    case isFalse fresh => exact ⟨by simpa using fresh, upTo_le top chosen.2⟩
  rw [pushed]
  refine ⟨by rw [Array.size_push, size], ?_, fun x hx => ?_⟩
  · rw [Array.toList_push, ← List.concat_eq_append]
    exact nodup.concat (mt Array.mem_toList_iff.mp fresh)
  · rw [Finset.mem_range]
    rcases Array.mem_push.mp hx with before | rfl
    · exact Nat.lt_succ_of_lt (Finset.mem_range.mp (inside x before))
    · exact Nat.lt_succ_of_le least

theorem selectFew_mem {pool count : Nat} (enough : count ≤ pool) (g : Generator) :
    (selectFew pool count g).1 ∈ Tuples count (Finset.range pool) := by
  have grown (k : Nat) : (((List.range k).map (pool - count + ·)).foldl selectNext (#[], g)).1 ∈
      Tuples k (Finset.range (pool - count + k)) := by
    induction k with
    | zero => exact ⟨rfl, List.nodup_nil, by simp⟩
    | succ k ih =>
      rw [List.range_succ, List.map_append, List.foldl_append]
      exact selectNext_mem ih
  obtain ⟨size, nodup, inside⟩ := grown count
  rw [Nat.sub_add_cancel enough] at inside
  have perm := perm_shuffleWith upTo
    (((List.range count).map (pool - count + ·)).foldl selectNext (#[], g)).1
    (((List.range count).map (pool - count + ·)).foldl selectNext (#[], g)).2
  refine ⟨perm.size_eq.trans size, perm.toList.nodup_iff.mpr nodup, fun x hx => ?_⟩
  exact inside x (perm.mem_iff.mp hx)

/-- A selection is of distinct numbers of the pool, whatever the state of the stream is. -/
theorem select_mem {pool count : Nat} (enough : count ≤ pool) (g : Generator) :
    (select pool count g).1 ∈ Tuples count (Finset.range pool) := by
  unfold select
  split
  · exact selectTail_mem enough g
  · exact selectFew_mem enough g

end Random

section Tuples

variable {f : Nat → Nat} {S T : Finset Nat} {k : Nat}

theorem mapsTo_map (maps : Set.MapsTo f S T) (inj : Set.InjOn f S) :
    Set.MapsTo (Array.map f) (Tuples k S) (Tuples k T) := by
  rintro xs ⟨size, nodup, inside⟩
  refine ⟨by rw [Array.size_map, size], ?_, fun y hy => ?_⟩
  · rw [Array.toList_map]
    exact nodup.map_on fun a ha b hb =>
      inj (inside a (Array.mem_toList_iff.mp ha)) (inside b (Array.mem_toList_iff.mp hb))
  · obtain ⟨x, hx, rfl⟩ := Array.mem_map.mp hy
    exact maps (inside x hx)

theorem injOn_map (inj : Set.InjOn f S) : Set.InjOn (Array.map f) (Tuples k S) := by
  rintro xs ⟨size, -, inside⟩ ys ⟨size', -, inside'⟩ same
  refine Array.ext (size.trans size'.symm) fun i hi hi' => ?_
  apply inj (inside _ (Array.getElem_mem hi)) (inside' _ (Array.getElem_mem hi'))
  simpa [hi, hi'] using congrArg (fun zs : Array Nat => zs[i]?) same

/-- A bijection of two sets is one of their tuples, place by place. -/
theorem bijOn_map (bij : Set.BijOn f S T) :
    Set.BijOn (Array.map f) (Tuples k S) (Tuples k T) := by
  refine ⟨mapsTo_map bij.mapsTo bij.injOn, injOn_map bij.injOn, fun ys hys => ?_⟩
  let back := Function.invFunOn f S
  have inverse : Set.RightInvOn back f T := bij.invOn_invFunOn.2
  have maps : Set.MapsTo back T S := bij.surjOn.mapsTo_invFunOn
  refine ⟨ys.map back, mapsTo_map maps inverse.injOn hys, ?_⟩
  rw [Array.map_map]
  calc ys.map (f ∘ back) = ys.map id := Array.map_congr_left fun y hy => inverse (hys.2.2 y hy)
    _ = ys := Array.map_id ys

end Tuples

/-- A bijection onto the outcomes keeps their probabilities. -/
theorem map_apply_of_bijOn {β γ : Type} {f : β → γ} {S : Set β} {T : Set γ} (bij : Set.BijOn f S T)
    {choice : PMF β} (only : choice.support ⊆ S) {b : β} (hb : b ∈ S) :
    choice.map f (f b) = choice b := by
  classical
  rw [PMF.map_apply, tsum_eq_single b]
  · exact if_pos rfl
  · intro c other
    by_cases hc : c ∈ S
    · exact if_neg fun same => other (bij.injOn hc hb same.symm)
    · have never : choice c = 0 := (choice.apply_eq_zero_iff c).mpr fun can => hc (only can)
      rw [never, ite_self]

namespace Draw

open BoxSearch.Random

variable {n e : Nat} {exclude : Option Int}

/-- The index that a pick stands for, where a gap is stepped over. -/
def past (hole : Option Nat) (pick : Nat) : Nat :=
  match hole with
  | some e => if e ≤ pick then pick + 1 else pick
  | none => pick

/-- The indices of `[0, n)` without an excluded one. -/
def admissible (n : Nat) (exclude : Option Int) : Finset Nat :=
  (Finset.range n).filter fun i => exclude ≠ some (i : Int)

theorem strictMono_past (hole : Option Nat) : StrictMono (past hole) := by
  intro i j below
  cases hole with
  | none => exact below
  | some e =>
    simp only [past]
    split <;> split <;> omega

/-- Stepping over a gap reaches all that is left of a range that is longer by one. -/
theorem bijOn_past (inside : e < n) :
    Set.BijOn (past (some e)) (Finset.range (n - 1)) ((Finset.range n).erase e) := by
  refine ⟨fun i hi => ?_, (strictMono_past _).injective.injOn, fun j hj => ?_⟩
  · rw [Finset.mem_coe, Finset.mem_range] at hi
    rw [Finset.mem_coe, Finset.mem_erase, Finset.mem_range, past]
    split <;> omega
  · rw [Finset.mem_coe, Finset.mem_erase, Finset.mem_range] at hj
    refine ⟨if e < j then j - 1 else j, ?_, ?_⟩
    · rw [Finset.mem_coe, Finset.mem_range]
      split <;> omega
    · rw [past]
      split <;> split <;> omega

theorem gap?_eq_some : gap? n exclude = some e ↔ exclude = some (e : Int) ∧ e < n := by
  rcases exclude with _ | i
  · simp [gap?]
  · rw [gap?, Option.some_inj]
    split
    case isTrue inside =>
      rw [Option.some_inj]
      omega
    case isFalse outside =>
      constructor
      · intro found
        cases found
      · rintro ⟨rfl, inside⟩
        omega

theorem admissible_of_gap (gap : gap? n exclude = some e) :
    admissible n exclude = (Finset.range n).erase e := by
  obtain ⟨rfl, -⟩ := gap?_eq_some.mp gap
  ext i
  rw [admissible, Finset.mem_filter, Finset.mem_erase, ne_eq, Option.some_inj, Nat.cast_inj,
    eq_comm, and_comm]

theorem admissible_of_no_gap (whole : gap? n exclude = none) :
    admissible n exclude = Finset.range n := by
  refine Finset.filter_true_of_mem fun i hi same => ?_
  have gap : gap? n exclude = some i := gap?_eq_some.mpr ⟨same, Finset.mem_range.mp hi⟩
  rw [whole] at gap
  cases gap

/-- The numbers of a pool stand for the admissible indices. -/
theorem bijOn_admissible (n : Nat) (exclude : Option Int) :
    Set.BijOn (past (gap? n exclude)) (Finset.range (admissible n exclude).card)
      (admissible n exclude) := by
  cases gap : gap? n exclude with
  | none =>
    rw [admissible_of_no_gap gap, Finset.card_range]
    exact Set.bijOn_id _
  | some e =>
    have inside := (gap?_eq_some.mp gap).2
    rw [admissible_of_gap gap, Finset.card_erase_of_mem (Finset.mem_range.mpr inside),
      Finset.card_range]
    exact bijOn_past inside

theorem pool_eq (n : Nat) (exclude : Option Int) :
    (n : Int) - (if (gap? n exclude).isSome then 1 else 0) = (admissible n exclude).card := by
  cases gap : gap? n exclude with
  | none =>
    rw [admissible_of_no_gap gap, Finset.card_range]
    simp
  | some e =>
    have inside := (gap?_eq_some.mp gap).2
    rw [admissible_of_gap gap, Finset.card_erase_of_mem (Finset.mem_range.mpr inside),
      Finset.card_range]
    simp only [Option.isSome_some, if_true]
    omega

/-- Distinct indices are a selection from a pool of the size of what is admissible, where a gap is
stepped over. A pool that is too small is told. -/
theorem run_distinct (n k : Nat) (exclude : Option Int) (g : Generator) :
    (distinct n k exclude).run g =
      if (admissible n exclude).card < k then
        (.error (.misuse (.poolTooSmall k (admissible n exclude).card)), g)
      else (.ok ((select (admissible n exclude).card k g).1.map (past (gap? n exclude))),
        (select (admissible n exclude).card k g).2) := by
  have whole : ¬(k : Int) < 0 := by omega
  unfold distinct
  simp only [pool_eq, Nat.cast_lt, if_neg whole, Int.toNat_natCast]
  split
  · rfl
  · cases gap? n exclude with
    | none => exact congrArg (fun xs => (Except.ok xs, _)) (Array.map_id _).symm
    | some e => rfl

/-- Distinct indices are drawn without replacement, and evenly if selections are even. The draw
fails exactly if more are asked for than are admissible, and takes nothing from the stream then.
Else what comes of it are the images of a selection of distinct numbers under a map that keeps their
order, and that is a bijection of the selections onto all tuples of distinct admissible indices. So
if all selections are equally likely, then all such tuples are. -/
theorem distinct_without_replacement (n k : Nat) (exclude : Option Int) :
    (∀ g, (distinct n k exclude).run g =
      if (admissible n exclude).card < k then
        (.error (.misuse (.poolTooSmall k (admissible n exclude).card)), g)
      else (.ok ((select (admissible n exclude).card k g).1.map (past (gap? n exclude))),
        (select (admissible n exclude).card k g).2)) ∧
    (k ≤ (admissible n exclude).card → ∀ g,
      (select (admissible n exclude).card k g).1 ∈
          Tuples k (Finset.range (admissible n exclude).card) ∧
        (select (admissible n exclude).card k g).1.map (past (gap? n exclude)) ∈
          Tuples k (admissible n exclude)) ∧
    StrictMono (past (gap? n exclude)) ∧
    Set.BijOn (Array.map (past (gap? n exclude)))
      (Tuples k (Finset.range (admissible n exclude).card)) (Tuples k (admissible n exclude)) ∧
    ∀ (choice : PMF (Array Nat)) (p : ENNReal),
      choice.support ⊆ Tuples k (Finset.range (admissible n exclude).card) →
      (∀ picks ∈ Tuples k (Finset.range (admissible n exclude).card), choice picks = p) →
      ∀ xs ∈ Tuples k (admissible n exclude),
        choice.map (Array.map (past (gap? n exclude))) xs = p := by
  have bij := bijOn_map (k := k) (bijOn_admissible n exclude)
  refine ⟨run_distinct n k exclude, fun enough g => ?_, strictMono_past _, bij, ?_⟩
  · have selected := select_mem enough g
    exact ⟨selected, bij.mapsTo selected⟩
  · intro choice p only even xs hxs
    obtain ⟨picks, hpicks, rfl⟩ := bij.surjOn hxs
    exact (map_apply_of_bijOn bij only hpicks).trans (even picks hpicks)

theorem distinct_without_replacement_three :
    (1 ≤ (admissible 3 (some 0)).card ∧ ∀ g : Generator,
      (select 2 1 g).1.map (past (gap? 3 (some 0))) ∈ Tuples 1 (admissible 3 (some 0))) ∧
    (PMF.uniformOfFinset {#[0], #[1]} (Finset.insert_nonempty _ _)).map
      (Array.map (past (gap? 3 (some 0)))) #[2] = 2⁻¹ := by
  have card : (admissible 3 (some 0)).card = 2 := by decide
  obtain ⟨-, selected, -, -, even⟩ := distinct_without_replacement 3 1 (some 0)
  rw [card] at selected even
  have pool (xs : Array Nat) :
      xs ∈ Tuples 1 (Finset.range 2) ↔ xs ∈ ({#[0], #[1]} : Finset (Array Nat)) := by
    rw [Finset.mem_insert, Finset.mem_singleton]
    constructor
    · rintro ⟨size, -, inside⟩
      obtain ⟨x, rfl⟩ := Array.size_eq_one_iff.mp size
      have below := Finset.mem_range.mp (inside x (Array.mem_singleton.mpr rfl))
      interval_cases x
      · exact .inl rfl
      · exact .inr rfl
    · rintro (rfl | rfl)
      · exact ⟨rfl, List.nodup_singleton 0, by decide⟩
      · exact ⟨rfl, List.nodup_singleton 1, by decide⟩
  refine ⟨⟨by decide, fun g => (selected (by decide) g).2⟩, even _ _ ?_ ?_ _ ?_⟩
  · intro xs hxs
    rw [PMF.support_uniformOfFinset] at hxs
    exact (pool xs).mpr hxs
  · intro xs hxs
    rw [PMF.uniformOfFinset_apply_of_mem _ ((pool xs).mp hxs)]
    rfl
  · exact ⟨rfl, List.nodup_singleton 2, by decide⟩

end Draw

end BoxSearch
