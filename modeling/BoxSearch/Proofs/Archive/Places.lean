import BoxSearch.Proofs.Archive.Crowding
import BoxSearch.Proofs.Scalar.Share

/-!
What crowding distances are, without sorting.

The entries of a column are in order by value and then by index. A row is extreme if it comes first
or last in the order of one of the columns, and then its distance is infinite. Otherwise its distance
is a sum of shares: of each column with a finite and positive range the gap between the two
neighbours in that order, as a part of the range. Distances are computed in place along a ranking,
and the extremes are marked before it is known whether the column has a range. So a marked row may
get another share, and stays marked.
-/

namespace BoxSearch.Crowding

open Scalar OrderedScalar

variable {α : Type} [Scalar α]

/-- The order of the entries by value and then by index. -/
def Before (values : Array α) (i j : Nat) : Prop :=
  values.getD i zero < values.getD j zero ∨
    (values.getD i zero == values.getD j zero) = true ∧ i < j

instance (values : Array α) (i j : Nat) : Decidable (Before values i j) :=
  inferInstanceAs (Decidable (_ ∨ _))

def First (values : Array α) (i : Nat) : Prop :=
  ∀ j < values.size, j ≠ i → Before values i j

instance (values : Array α) (i : Nat) : Decidable (First values i) :=
  inferInstanceAs (Decidable (∀ j < values.size, j ≠ i → Before values i j))

def Last (values : Array α) (i : Nat) : Prop :=
  ∀ j < values.size, j ≠ i → Before values j i

instance (values : Array α) (i : Nat) : Decidable (Last values i) :=
  inferInstanceAs (Decidable (∀ j < values.size, j ≠ i → Before values j i))

def Extreme (values : Array α) (i : Nat) : Prop :=
  First values i ∨ Last values i

instance (values : Array α) (i : Nat) : Decidable (Extreme values i) :=
  inferInstanceAs (Decidable (_ ∨ _))

/-- The entry `k` follows the entry `i`, with no other one between them. -/
def Next (values : Array α) (i k : Nat) : Prop :=
  Before values i k ∧ ∀ j < values.size, Before values i j → j = k ∨ Before values k j

instance (values : Array α) (i k : Nat) : Decidable (Next values i k) :=
  inferInstanceAs (Decidable (_ ∧ ∀ j < values.size, Before values i j → j = k ∨ Before values k j))

/-- The value of the entry that a property singles out. -/
def valueWhere (values : Array α) (p : Nat → Prop) [DecidablePred p] : Option α :=
  ((List.range values.size).find? p).map (values.getD · zero)

/-- What a column adds to the distance of a row that is not extreme. -/
def share? (values : Array α) (i : Nat) : Option α := do
  let least ← valueWhere values (First values)
  let greatest ← valueWhere values (Last values)
  let before ← valueWhere values (Next values · i)
  let after ← valueWhere values (Next values i)
  let span := greatest - least
  if isFinite span = true ∧ zero < span then some ((after - before) / span) else none

section Order

variable {values : Array α}

theorem perm_ranking (values : Array α) : (ranking values).Perm (List.range values.size) :=
  List.mergeSort_perm _ _

@[simp]
theorem length_ranking (values : Array α) : (ranking values).length = values.size := by
  rw [(perm_ranking values).length_eq, List.length_range]

theorem nodup_ranking (values : Array α) : (ranking values).Nodup :=
  (perm_ranking values).nodup_iff.mpr List.nodup_range

theorem ranking_lt {k : Nat} (hk : k < (ranking values).length) :
    (ranking values)[k] < values.size :=
  List.mem_range.mp ((perm_ranking values).mem_iff.mp (List.getElem_mem hk))

theorem exists_ranking {i : Nat} (hi : i < values.size) :
    ∃ k, ∃ hk : k < (ranking values).length, (ranking values)[k] = i :=
  List.mem_iff_getElem.mp ((perm_ranking values).mem_iff.mpr (List.mem_range.mpr hi))

variable [SignedScalar α]

theorem before_irrefl (values : Array α) (i : Nat) : ¬Before values i i := by
  rintro (below | ⟨-, below⟩)
  · exact lt_irrefl _ below
  · exact Nat.lt_irrefl _ below

theorem before_asymm {i j : Nat} (hij : Before values i j) : ¬Before values j i := by
  rintro (below | ⟨same, below⟩)
  · rcases hij with above | ⟨same, -⟩
    · exact not_le_of_lt below (Scalar.le_of_lt above)
    · exact not_le_of_lt below (beq_iff.mp same).1
  · rcases hij with above | ⟨-, above⟩
    · exact not_le_of_lt above (beq_iff.mp same).1
    · omega

/-- Sorting does not swap entries that are equal. -/
theorem ranking_stable {i j : Nat} (hij : i < j) (hj : j < values.size)
    (ordered : values.getD i zero ≤ values.getD j zero) :
    (ranking values).idxOf i < (ranking values).idxOf j := by
  have pair : [i, j].Sublist (List.range values.size) := by
    have parts : List.range values.size =
        List.range j ++ (List.range (values.size - j)).map (j + ·) := by
      rw [← List.range_add, Nat.add_sub_cancel' hj.le]
    have first : [i].Sublist (List.range j) := List.singleton_sublist.mpr (List.mem_range.mpr hij)
    have second : [j].Sublist ((List.range (values.size - j)).map (j + ·)) :=
      List.singleton_sublist.mpr (List.mem_map.mpr ⟨0, by simpa using hj, rfl⟩)
    rw [parts]
    exact first.append second
  have kept : [i, j].Sublist (ranking values) :=
    List.pair_sublist_mergeSort (fun _ _ _ => not_precedes_trans)
      (fun _ _ => not_precedes_total _ _) (not_precedes_iff.mpr (.inr ordered)) pair
  have places : (ranking values).Pairwise fun i j =>
      (ranking values).idxOf i < (ranking values).idxOf j := by
    rw [List.pairwise_iff_getElem]
    intro a b ha hb hab
    rwa [(nodup_ranking values).idxOf_getElem, (nodup_ranking values).idxOf_getElem]
  exact List.rel_of_pairwise_cons (places.sublist kept) List.mem_cons_self

/-- A ranking lists the entries in their order, since equal entries are not swapped. -/
theorem before_ranking (number : ∀ i, values.getD i zero ≤ values.getD i zero) :
    (ranking values).Pairwise (Before values) := by
  rw [List.pairwise_iff_getElem]
  intro a b ha hb hab
  have ordered := List.pairwise_iff_getElem.mp (pairwise_ranking number) a b ha hb hab
  by_cases below : values.getD (ranking values)[a] zero < values.getD (ranking values)[b] zero
  · exact .inl below
  refine .inr ⟨beq_iff.mpr ⟨ordered, le_of_not_lt (number _) (number _) below⟩, ?_⟩
  by_contra swapped
  have different : (ranking values)[a] ≠ (ranking values)[b] := by
    rw [Ne, (nodup_ranking values).getElem_inj_iff]
    exact hab.ne
  have stable := ranking_stable (by omega) (ranking_lt ha)
    (le_of_not_lt (number _) (number _) below)
  rw [(nodup_ranking values).idxOf_getElem, (nodup_ranking values).idxOf_getElem] at stable
  omega

variable (number : ∀ i, values.getD i zero ≤ values.getD i zero) {a b : Nat}
  (ha : a < (ranking values).length) (hb : b < (ranking values).length)

include number

theorem before_iff : Before values (ranking values)[a] (ranking values)[b] ↔ a < b := by
  have ascending := List.pairwise_iff_getElem.mp (before_ranking number)
  constructor
  · intro before
    rcases Nat.lt_trichotomy a b with below | rfl | above
    · exact below
    · exact absurd before (before_irrefl _ _)
    · exact absurd (ascending b a hb ha above) (before_asymm before)
  · exact ascending a b ha hb

omit ha hb in
theorem ranking_mono (ha : a < (ranking values).length) (hb : b < (ranking values).length)
    (hab : a ≤ b) :
    values.getD (ranking values)[a] zero ≤ values.getD (ranking values)[b] zero := by
  rcases hab.eq_or_lt with rfl | below
  · exact number _
  · exact List.pairwise_iff_getElem.mp (pairwise_ranking number) a b ha hb below

theorem first_iff : First values (ranking values)[a] ↔ a = 0 := by
  constructor
  · intro first
    by_contra later
    have origin : 0 < (ranking values).length := Nat.zero_lt_of_lt ha
    have different : (ranking values)[0] ≠ (ranking values)[a] := by
      rw [Ne, (nodup_ranking values).getElem_inj_iff]
      exact fun same => later same.symm
    have before := (before_iff number ha origin).mp (first _ (ranking_lt origin) different)
    exact Nat.not_lt_zero a before
  · rintro rfl j hj different
    obtain ⟨b, hb, rfl⟩ := exists_ranking hj
    rw [before_iff number ha hb]
    refine Nat.pos_of_ne_zero ?_
    rintro rfl
    exact different rfl

theorem last_iff : Last values (ranking values)[a] ↔ a + 1 = values.size := by
  have size := length_ranking values
  constructor
  · intro last
    by_contra earlier
    have origin : a + 1 < (ranking values).length := by omega
    have different : (ranking values)[a + 1] ≠ (ranking values)[a] := by
      rw [Ne, (nodup_ranking values).getElem_inj_iff]
      omega
    have before := (before_iff number origin ha).mp (last _ (ranking_lt origin) different)
    omega
  · intro final j hj different
    obtain ⟨b, hb, rfl⟩ := exists_ranking hj
    rw [before_iff number hb ha]
    have places : b ≠ a := fun same => different (by simp [same])
    omega

theorem next_iff : Next values (ranking values)[a] (ranking values)[b] ↔ b = a + 1 := by
  rw [Next, before_iff number ha hb]
  constructor
  · rintro ⟨above, least⟩
    by_contra apart
    have middle : a + 1 < (ranking values).length := by omega
    have before := (before_iff number ha middle).mpr (Nat.lt_succ_self a)
    rcases least _ (ranking_lt middle) before with same | beyond
    · rw [(nodup_ranking values).getElem_inj_iff] at same
      omega
    · have beyond := (before_iff number hb middle).mp beyond
      omega
  · rintro rfl
    refine ⟨Nat.lt_succ_self a, fun j hj before => ?_⟩
    obtain ⟨c, hc, rfl⟩ := exists_ranking hj
    have above := (before_iff number ha hc).mp before
    rcases Nat.eq_or_lt_of_le above with rfl | beyond
    · exact .inl rfl
    · exact .inr ((before_iff number hb hc).mpr beyond)

end Order

section Share

variable {values : Array α}

/-- A property of a single entry singles out the value of that entry. -/
theorem valueWhere_eq {p : Nat → Prop} [DecidablePred p] {i : Nat}
    (hi : i < values.size) (only : ∀ j < values.size, p j ↔ j = i) :
    valueWhere values p = some (values.getD i zero) := by
  have found : (List.range values.size).find? p = some i := by
    cases found : (List.range values.size).find? p with
    | none =>
      have missing := List.find?_eq_none.mp found i (List.mem_range.mpr hi)
      exact absurd ((only i hi).mpr rfl) (by simpa using missing)
    | some j =>
      have inside := List.mem_range.mp (List.mem_of_find?_eq_some found)
      have holds : p j := by simpa using List.find?_some found
      rw [(only j inside).mp holds]
  rw [valueWhere, found, Option.map_some]

/-- A property of a single place in the order singles out the value there. -/
theorem valueWhere_ranking {p : Nat → Prop} [DecidablePred p] {a : Nat}
    (ha : a < (ranking values).length)
    (only : ∀ b, ∀ hb : b < (ranking values).length, p (ranking values)[b] ↔ b = a) :
    valueWhere values p = some (values.getD (ranking values)[a] zero) := by
  apply valueWhere_eq (ranking_lt ha)
  intro j hj
  obtain ⟨b, hb, rfl⟩ := exists_ranking hj
  rw [only b hb, (nodup_ranking values).getElem_inj_iff]

variable [SignedScalar α] (number : ∀ i, values.getD i zero ≤ values.getD i zero)

include number

/-- The share of a row between two others. -/
theorem share?_ranking {k : Nat} (filled : 0 < (ranking values).length)
    (top : values.size - 1 < (ranking values).length) (before : k < (ranking values).length)
    (here : k + 1 < (ranking values).length) (after : k + 2 < (ranking values).length) :
    share? values (ranking values)[k + 1] =
      let span := values.getD (ranking values)[values.size - 1] zero -
        values.getD (ranking values)[0] zero
      if isFinite span = true ∧ zero < span then
        some ((values.getD (ranking values)[k + 2] zero -
          values.getD (ranking values)[k] zero) / span)
      else none := by
  have size := length_ranking values
  have least := valueWhere_ranking filled fun b hb => first_iff number hb
  have greatest := valueWhere_ranking (p := Last values) top fun b hb => by
    rw [last_iff number hb]
    omega
  have previous := valueWhere_ranking (p := (Next values · (ranking values)[k + 1])) before
    fun b hb => by
      rw [next_iff number hb here]
      omega
  have next := valueWhere_ranking (p := Next values (ranking values)[k + 1]) after
    fun b hb => next_iff number here hb
  simp only [share?, least, greatest, previous, next, Option.bind_eq_bind, Option.bind_some]

end Share

section Gaps

variable {values d : Array α} {span : α} {gs : List (Nat × α)} {i : Nat}

theorem mem_gaps_iff {places : List Nat} {g : Nat × α} :
    g ∈ gaps values span places ↔
      ∃ k before here after, places[k]? = some before ∧ places[k + 1]? = some here ∧
        places[k + 2]? = some after ∧
        g = (here, (values.getD after zero - values.getD before zero) / span) := by
  fun_induction gaps values span places with
  | case1 before here after rest ih =>
    rw [List.mem_cons, ih]
    constructor
    · rintro (rfl | ⟨k, b, h, a, hb, hh, ha, rfl⟩)
      · exact ⟨0, before, here, after, rfl, rfl, rfl, rfl⟩
      · exact ⟨k + 1, b, h, a, hb, hh, ha, rfl⟩
    · rintro ⟨_ | k, b, h, a, hb, hh, ha, rfl⟩
      · cases hb
        cases hh
        cases ha
        exact .inl rfl
      · exact .inr ⟨k, b, h, a, hb, hh, ha, rfl⟩
  | case2 places short =>
    simp only [List.not_mem_nil, false_iff]
    rintro ⟨k, b, h, a, -, -, ha, -⟩
    have long := (List.getElem?_eq_some_iff.mp ha).1
    rcases places with _ | ⟨b, _ | ⟨h, _ | ⟨a, rest⟩⟩⟩
    · cases long
    · simp at long
    · simp at long
    · exact short b h a rest rfl

theorem keys_gaps (places : List Nat) :
    (gaps values span places).map Prod.fst = places.tail.dropLast := by
  fun_induction gaps values span places with
  | case1 before here after rest ih =>
    rw [List.map_cons, ih]
    rfl
  | case2 places short =>
    rcases places with _ | ⟨b, _ | ⟨h, _ | ⟨a, rest⟩⟩⟩
    · rfl
    · rfl
    · rfl
    · exact absurd rfl (short b h a rest)

theorem getD_modify_of_ne {j : Nat} (f : α → α) (other : j ≠ i) :
    (d.modify j f).getD i zero = d.getD i zero := by
  by_cases hi : i < d.size
  · simp [hi, Array.getElem_modify, other]
  · simp [hi]

/-- Additions at other places leave an entry alone. -/
theorem foldl_modify_of_notMem (elsewhere : ∀ g ∈ gs, g.1 ≠ i) :
    (gs.foldl (fun d (i, gap) => d.modify i (· + gap)) d).getD i zero = d.getD i zero := by
  induction gs generalizing d with
  | nil => rfl
  | cons g gs ih =>
    rw [List.foldl_cons, ih fun h hh => elsewhere h (List.mem_cons_of_mem _ hh)]
    exact getD_modify_of_ne _ (elsewhere g List.mem_cons_self)

/-- Additions at different places add to an entry once. -/
theorem foldl_modify_of_mem (distinct : (gs.map Prod.fst).Nodup) {gap : α} (hg : (i, gap) ∈ gs)
    (hi : i < d.size) :
    (gs.foldl (fun d (i, gap) => d.modify i (· + gap)) d).getD i zero = d.getD i zero + gap := by
  induction gs generalizing d with
  | nil => cases hg
  | cons g gs ih =>
    rw [List.map_cons, List.nodup_cons] at distinct
    rw [List.foldl_cons]
    rcases List.mem_cons.mp hg with rfl | later
    · rw [foldl_modify_of_notMem fun h hh same =>
        distinct.1 (List.mem_map.mpr ⟨h, hh, same⟩)]
      simp [hi, Array.getElem_modify]
    · have other : g.1 ≠ i := fun same => distinct.1 (List.mem_map.mpr ⟨_, later, same.symm⟩)
      rw [ih distinct.2 later (by simpa using hi)]
      exact congrArg (· + gap) (getD_modify_of_ne _ other)

theorem getD_marked {a b : Nat} (x : α) (hi : i < d.size) :
    ((d.setIfInBounds a x).setIfInBounds b x).getD i zero =
      if a = i ∨ b = i then x else d.getD i zero := by
  by_cases first : a = i <;> by_cases last : b = i <;>
    simp [hi, first, last]

/-- Gaps belong to the rows between the first and the last one. -/
theorem gap_inside {g : Nat × α} (hg : g ∈ gaps values span (ranking values)) {k : Nat}
    (hk : k < (ranking values).length) (same : g.1 = (ranking values)[k]) :
    k ≠ 0 ∧ k + 1 ≠ values.size := by
  have size := length_ranking values
  obtain ⟨m, before, here, after, -, hh, ha, rfl⟩ := mem_gaps_iff.mp hg
  obtain ⟨inside, rfl⟩ := List.getElem?_eq_some_iff.mp hh
  have beyond := (List.getElem?_eq_some_iff.mp ha).1
  rw [(nodup_ranking values).getElem_inj_iff] at same
  omega

theorem nodup_gaps (values : Array α) (span : α) :
    ((gaps values span (ranking values)).map Prod.fst).Nodup := by
  rw [keys_gaps]
  exact (nodup_ranking values).sublist ((List.dropLast_sublist _).trans (List.tail_sublist _))

end Gaps

section Objective

variable [SharedScalar α] {values d : Array α}

/-- The range of a column. -/
theorem proper_iff {span : α} :
    (!isFinite span || decide (span ≤ zero)) = false ↔ isFinite span = true ∧ zero < span := by
  rw [Bool.or_eq_false_iff, Bool.not_eq_false', decide_eq_false_iff_not]
  refine and_congr_right fun finite => ?_
  have number := le_self_of_isFinite finite
  exact ⟨(lt_or_le SignedScalar.zero_le_zero number).resolve_right, not_le_of_lt⟩

/-- One more objective marks its extremes. If it has a range, then the gaps are added, too. -/
theorem addObjective_eq (filled : 0 < (ranking values).length)
    (top : values.size - 1 < (ranking values).length) :
    addObjective d values =
      let marked := (d.setIfInBounds (ranking values)[0] infinity).setIfInBounds
        (ranking values)[values.size - 1] infinity
      let span := values.getD (ranking values)[values.size - 1] zero -
        values.getD (ranking values)[0] zero
      if isFinite span = true ∧ zero < span then
        (gaps values span (ranking values)).foldl (fun d (i, gap) => d.modify i (· + gap)) marked
      else marked := by
  have size := length_ranking values
  obtain ⟨first, rest, ranked⟩ := List.exists_cons_of_length_pos filled
  have head : (ranking values)[0] = first := by simp [ranked]
  have last : (ranking values)[values.size - 1] = rest.getLastD first := by
    have found : (ranking values)[values.size - 1]? = some (rest.getLastD first) := by
      rw [← size, ← List.getLast?_eq_getElem?, ranked, List.getLast?_cons,
        List.getLastD_eq_getLast?]
    exact (List.getElem?_eq_some_iff.mp found).2
  rw [head, last]
  simp only [addObjective, ranked]
  by_cases proper : isFinite (values.getD (rest.getLastD first) zero - values.getD first zero) =
      true ∧ zero < values.getD (rest.getLastD first) zero - values.getD first zero
  · rw [if_pos proper, if_neg (Bool.eq_false_iff.mp (proper_iff.mpr proper))]
  · rw [if_neg proper, if_pos]
    by_contra improper
    exact proper (proper_iff.mp (Bool.eq_false_iff.mpr improper))

variable (number : ∀ i, values.getD i zero ≤ values.getD i zero) (size : d.size = values.size)
  {i : Nat} (hi : i < values.size)

include number size hi

/-- A row that is extreme in a column gets an infinite distance. -/
theorem addObjective_extreme (extreme : Extreme values i) :
    (addObjective d values).getD i zero = infinity := by
  have length := length_ranking values
  have filled : 0 < (ranking values).length := by omega
  have top : values.size - 1 < (ranking values).length := by omega
  obtain ⟨k, hk, rfl⟩ := exists_ranking hi
  rw [Extreme, first_iff number hk, last_iff number hk] at extreme
  have marked : ((d.setIfInBounds (ranking values)[0] infinity).setIfInBounds
      (ranking values)[values.size - 1] infinity).getD (ranking values)[k] zero = infinity := by
    rw [getD_marked _ (by omega), if_pos]
    rw [(nodup_ranking values).getElem_inj_iff, (nodup_ranking values).getElem_inj_iff]
    omega
  rw [addObjective_eq filled top]
  dsimp only
  split
  · rw [foldl_modify_of_notMem fun g hg same => by have := gap_inside hg hk same; omega]
    exact marked
  · exact marked

omit size in
/-- Any other row has a place between two others. -/
theorem exists_ranking_inner (inner : ¬Extreme values i) :
    ∃ k, ∃ hk : k + 1 < (ranking values).length,
      k + 2 < (ranking values).length ∧ (ranking values)[k + 1] = i := by
  have length := length_ranking values
  obtain ⟨k, hk, rfl⟩ := exists_ranking hi
  rw [Extreme, first_iff number hk, last_iff number hk] at inner
  obtain ⟨k, rfl⟩ : ∃ j, k = j + 1 := Nat.exists_eq_succ_of_ne_zero (by omega)
  exact ⟨k, hk, by omega, rfl⟩

/-- It gets its share on top of what it has. -/
theorem addObjective_share (inner : ¬Extreme values i) :
    (addObjective d values).getD i zero =
      match share? values i with
      | some share => d.getD i zero + share
      | none => d.getD i zero := by
  have length := length_ranking values
  have filled : 0 < (ranking values).length := by omega
  have top : values.size - 1 < (ranking values).length := by omega
  obtain ⟨k, hk, after, rfl⟩ := exists_ranking_inner number hi inner
  have before : k < (ranking values).length := by omega
  have unmarked : ((d.setIfInBounds (ranking values)[0] infinity).setIfInBounds
      (ranking values)[values.size - 1] infinity).getD (ranking values)[k + 1] zero =
      d.getD (ranking values)[k + 1] zero := by
    rw [getD_marked _ (by omega), if_neg]
    rw [(nodup_ranking values).getElem_inj_iff, (nodup_ranking values).getElem_inj_iff]
    omega
  rw [share?_ranking number filled top before hk after, addObjective_eq filled top]
  dsimp only
  split
  · rw [foldl_modify_of_mem (nodup_gaps values _) (mem_gaps_iff.mpr ⟨k, _, _, _,
      List.getElem?_eq_getElem before, List.getElem?_eq_getElem hk,
      List.getElem?_eq_getElem after, rfl⟩) (by simpa [size] using hi), unmarked]
  · exact unmarked

omit size in
/-- A share can be added to any finite distance. -/
theorem finite_add_share? (inner : ¬Extreme values i) {share : α}
    (h : share? values i = some share) :
    zero ≤ share ∧ ∀ {x : α}, isFinite x = true → zero ≤ x → isFinite (x + share) = true := by
  have length := length_ranking values
  have filled : 0 < (ranking values).length := by omega
  have top : values.size - 1 < (ranking values).length := by omega
  obtain ⟨k, hk, after, rfl⟩ := exists_ranking_inner number hi inner
  have before : k < (ranking values).length := by omega
  rw [share?_ranking number filled top before hk after] at h
  dsimp only at h
  split at h
  case isFalse => cases h
  case isTrue proper =>
    cases h
    obtain ⟨finite, positive⟩ := proper
    have low := ranking_mono number filled before (Nat.zero_le k)
    have middle := ranking_mono number before after (Nat.le_add_right k 2)
    have high := ranking_mono number after top (by omega)
    obtain ⟨finiteHigh, finiteLow⟩ := SignedScalar.finite_of_sub finite
    have finiteBefore := isFinite_of_between finiteLow finiteHigh low (le_trans middle high)
    have finiteAfter := isFinite_of_between finiteLow finiteHigh (le_trans low middle) high
    have gap := SignedScalar.sub_nonneg finiteAfter finiteBefore middle
    exact ⟨SignedScalar.div_nonneg gap finite positive, fun finiteX nonneg =>
      SharedScalar.finite_add_share finiteX nonneg low middle high finite positive⟩

/-- A row that was marked stays so, since a share does not change that. -/
theorem addObjective_marked (marked : d.getD i zero = infinity) :
    (addObjective d values).getD i zero = infinity := by
  by_cases here : Extreme values i
  · exact addObjective_extreme number size hi here
  · rw [addObjective_share number size hi here, marked]
    split
    case h_1 share found =>
      exact SharedScalar.infinity_add (finite_add_share? number hi here found).1
    case h_2 => rfl

/-- A row that is not extreme adds its share to those that it has collected. -/
theorem addObjective_collects (inner : ¬Extreme values i) {shares : List α}
    (finite : isFinite (d.getD i zero) = true) (nonneg : zero ≤ d.getD i zero)
    (collected : d.getD i zero = sumFrom zero shares) :
    isFinite ((addObjective d values).getD i zero) = true ∧
      (addObjective d values).getD i zero =
        sumFrom zero (shares ++ (share? values i).toList) := by
  rw [addObjective_share number size hi inner]
  cases found : share? values i with
  | none =>
    rw [Option.toList_none, List.append_nil]
    exact ⟨finite, collected⟩
  | some share =>
    refine ⟨(finite_add_share? number hi inner found).2 finite nonneg, ?_⟩
    simp only [Option.toList_some, sumFrom, List.foldl_append, List.foldl_cons, List.foldl_nil]
    exact congrArg (· + share) collected

end Objective

section Distances

variable [SharedScalar α] {F : Rows α}

theorem not_isFinite_infinity : isFinite (infinity : α) = false := by
  simp [isFinite, Scalar.lt_irrefl]

/-- One or two entries are all extreme. -/
theorem extreme_of_few {values : Array α} (number : ∀ i, values.getD i zero ≤ values.getD i zero)
    (few : values.size ≤ 2) {i : Nat} (hi : i < values.size) : Extreme values i := by
  have length := length_ranking values
  obtain ⟨k, hk, rfl⟩ := exists_ranking hi
  rw [Extreme, first_iff number hk, last_iff number hk]
  omega

/-- After some of the columns a row is marked if it was extreme in one of them, and has collected its
shares if not. -/
theorem foldl_addObjective (numeric : ∀ f ∈ F, f.Numeric) {i : Nat} (hi : i < F.size) (w : Nat) :
    let d := (List.range w).foldl (fun d m => addObjective d (F.column m)) (F.map fun _ => zero)
    ((∃ m < w, Extreme (F.column m) i) → d.getD i zero = infinity) ∧
      ((∀ m < w, ¬Extreme (F.column m) i) → isFinite (d.getD i zero) = true ∧
        d.getD i zero = sumFrom zero ((List.range w).filterMap fun m => share? (F.column m) i)) := by
  induction w with
  | zero =>
    refine ⟨by rintro ⟨m, hm, -⟩; exact absurd hm (Nat.not_lt_zero m), fun _ => ?_⟩
    have start : (F.map fun _ => (zero : α)).getD i zero = zero := by simp [hi]
    change isFinite ((F.map fun _ => (zero : α)).getD i zero) = true ∧ _
    rw [start]
    exact ⟨SharedScalar.finite_zero, start⟩
  | succ w ih =>
    intro d
    let before := (List.range w).foldl (fun d m => addObjective d (F.column m)) (F.map fun _ => zero)
    have step : d = addObjective before (F.column w) := by
      simp only [d, before, List.range_succ, List.foldl_append, List.foldl_cons, List.foldl_nil]
    have number := column_le_self numeric w
    have comparable : Comparable F.size before :=
      comparable_foldl_addObjective F _ (comparable_map_const SignedScalar.zero_le_zero)
    have rows : (F.column w).size = F.size := by simp [Rows.column]
    have size : before.size = (F.column w).size := comparable.size.trans rows.symm
    have inside : i < (F.column w).size := by rwa [rows]
    have nonneg : zero ≤ before.getD i zero := by
      apply comparable.nonneg
      simp [comparable.size, hi]
    rw [step]
    constructor
    · rintro ⟨m, hm, extreme⟩
      rcases Nat.lt_succ_iff_lt_or_eq.mp hm with earlier | rfl
      · exact addObjective_marked number size inside (ih.1 ⟨m, earlier, extreme⟩)
      · exact addObjective_extreme number size inside extreme
    · intro inner
      obtain ⟨finite, collected⟩ := ih.2 fun m hm => inner m (Nat.lt_succ_of_lt hm)
      have last : [w].filterMap (fun m => share? (F.column m) i) =
          (share? (F.column w) i).toList := by
        rw [List.filterMap_cons]
        cases share? (F.column w) i <;> rfl
      rw [List.range_succ, List.filterMap_append, last]
      exact addObjective_collects number size inside (inner w (Nat.lt_succ_self w)) finite nonneg
        collected

theorem distances_extreme {w : Nat} (numeric : ∀ f ∈ F, f.Numeric) {i : Nat} (hi : i < F.size)
    (extreme : ∃ m < w, Extreme (F.column m) i) : (distances w F).getD i zero = infinity := by
  unfold distances
  split
  · simp [hi]
  · exact (foldl_addObjective numeric hi w).1 extreme

theorem distances_inner {w : Nat} (columns : 0 < w) (numeric : ∀ f ∈ F, f.Numeric) {i : Nat}
    (hi : i < F.size) (inner : ¬∃ m < w, Extreme (F.column m) i) :
    isFinite ((distances w F).getD i zero) = true ∧ (distances w F).getD i zero =
      sumFrom zero ((List.range w).filterMap fun m => share? (F.column m) i) := by
  have rows (m : Nat) : (F.column m).size = F.size := by simp [Rows.column]
  have many : ¬F.size ≤ 2 := fun few => inner ⟨0, columns,
    extreme_of_few (column_le_self numeric 0) (by rwa [rows]) (by rwa [rows])⟩
  rw [distances, if_neg many]
  exact (foldl_addObjective numeric hi w).2 fun m hm extreme => inner ⟨m, hm, extreme⟩

/-- The distance of a row is infinite exactly if the row comes first or last in one of the columns,
by value and then by index. Otherwise it is the sum, over the columns with a finite and positive
range, of the gaps between the next and the previous value as parts of the range. -/
theorem distances_eq_shares {w : Nat} (columns : 0 < w) (numeric : ∀ f ∈ F, f.Numeric) :
    (distances w F).size = F.size ∧ ∀ i < F.size,
      ((distances w F).getD i zero = infinity ↔ ∃ m < w, Extreme (F.column m) i) ∧
      ((¬∃ m < w, Extreme (F.column m) i) → (distances w F).getD i zero =
        sumFrom zero ((List.range w).filterMap fun m => share? (F.column m) i)) := by
  refine ⟨(comparable_distances w F).size, fun i hi => ⟨⟨fun infinite => ?_, ?_⟩, fun inner => ?_⟩⟩
  · by_contra inner
    have finite := (distances_inner columns numeric hi inner).1
    rw [infinite, not_isFinite_infinity] at finite
    cases finite
  · exact distances_extreme numeric hi
  · exact (distances_inner columns numeric hi inner).2

/-- Two columns, of which the second one has no finite range. The equal values in the first column
are told apart by their rows. -/
theorem distances_eq_shares_ties :
    let F : Rows Float := #[#[0.0, 4.0], #[1.0, 2.0], #[1.0, infinity], #[2.0, 1.0], #[4.0, 3.0]]
    (∀ f ∈ F, f.Numeric) ∧ (distances 2 F).getD 1 zero = 0.25 ∧
      (distances 2 F).getD 2 zero = infinity := by
  intro F
  have numeric : ∀ f ∈ F, f.Numeric := by decide +kernel
  obtain ⟨-, all⟩ := distances_eq_shares (w := 2) (F := F) Nat.two_pos numeric
  refine ⟨numeric, ?_, ?_⟩
  · rw [(all 1 (by decide)).2 (by decide +kernel)]
    decide +kernel
  · exact (all 2 (by decide)).1.mpr ⟨1, by decide, by decide +kernel⟩

end Distances

end BoxSearch.Crowding
