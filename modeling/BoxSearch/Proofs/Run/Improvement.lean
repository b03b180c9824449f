import BoxSearch.Proofs.Dominance
import BoxSearch.Proofs.Run.Moves

/-!
Populations that improve.

With a single objective a row gives way to what is not worse and to nothing else. So whatever is
offered to a population, no row gets worse, and nothing offered is better than all rows that are
left. The three ways to offer rows differ in who competes with whom: each candidate with the row of
its own place, several candidates with one row, or one candidate with the weaker of two rows.
-/

namespace BoxSearch

open OrderedScalar Scalar

variable {α P : Type} [Scalar α]

/-- Fitness with a single objective, whose value is a number. -/
structure Row.Single (f : Row α) : Prop where
  size : f.size = 1
  number : isNaN (f.gene 0) = false

/-- Every row has a single objective. -/
def Rows.Single (F : Rows α) : Prop :=
  ∀ f ∈ F.toList, Row.Single f

/-- What became of the fitness of a population to which other rows were offered. No row is worse
than it was, every row was there before or was offered, and every row offered is matched by one of
the population. -/
structure Rows.Improves (F : Rows α) (offered : List (Row α)) (F' : Rows α) : Prop where
  size : F'.size = F.size
  descends : ∀ i < F.size, (F'.row i).gene 0 ≤ (F.row i).gene 0
  origin : ∀ i < F.size, F'.row i = F.row i ∨ F'.row i ∈ offered
  matched : ∀ f ∈ offered, ∃ i < F.size, (F'.row i).gene 0 ≤ f.gene 0

theorem Row.Single.le_self [OrderedScalar α] {f : Row α} (h : f.Single) : f.gene 0 ≤ f.gene 0 :=
  isNaN_eq_false_iff.mp h.number

omit [Scalar α] in
theorem Rows.row_mem {F : Rows α} {i : Nat} (h : i < F.size) : F.row i ∈ F.toList := by
  simp [Rows.row, h]

omit [Scalar α] in
theorem Rows.exists_row {F : Rows α} {f : Row α} (h : f ∈ F.toList) : ∃ i < F.size, F.row i = f := by
  obtain ⟨i, inside, rfl⟩ := List.mem_iff_getElem.mp h
  have below : i < F.size := by simpa using inside
  exact ⟨i, below, by simp [Rows.row, below]⟩

namespace Rows

variable {F F' F'' : Rows α} {offered offered' : List (Row α)} {i : Nat}

theorem Single.row (h : Single F) (inside : i < F.size) : Row.Single (F.row i) :=
  h _ (row_mem inside)

theorem Improves.single (h : Improves F offered F') (single : Single F)
    (offers : ∀ f ∈ offered, Row.Single f) : Single F' := by
  intro f hf
  obtain ⟨i, inside, rfl⟩ := exists_row hf
  rw [h.size] at inside
  rcases h.origin i inside with same | new
  · rw [same]
    exact single.row inside
  · exact offers _ new

/-- Only which rows are offered counts. -/
theorem Improves.congr (h : Improves F offered F') (same : ∀ f, f ∈ offered' ↔ f ∈ offered) :
    Improves F offered' F' := by
  refine ⟨h.size, h.descends, fun i inside => ?_, fun f hf => h.matched f ((same f).mp hf)⟩
  rw [same]
  exact h.origin i inside

variable [OrderedScalar α]

theorem Improves.refl (single : Single F) : Improves F [] F :=
  ⟨rfl, fun _ inside => (single.row inside).le_self, fun _ _ => .inl rfl, nofun⟩

theorem Improves.trans (h : Improves F offered F') (h' : Improves F' offered' F'') :
    Improves F (offered ++ offered') F'' := by
  have descends : ∀ i < F.size, (F''.row i).gene 0 ≤ (F'.row i).gene 0 := by
    intro i inside
    apply h'.descends
    rwa [h.size]
  refine ⟨h'.size.trans h.size, ?_, ?_, ?_⟩
  · intro i inside
    exact le_trans (descends i inside) (h.descends i inside)
  · intro i inside
    rw [List.mem_append]
    rcases h'.origin i (by rwa [h.size]) with same | new
    · rw [same]
      exact (h.origin i inside).imp_right .inl
    · exact .inr (.inr new)
  · intro f hf
    rcases List.mem_append.mp hf with first | second
    · obtain ⟨i, inside, le⟩ := h.matched f first
      exact ⟨i, inside, le_trans (descends i inside) le⟩
    · obtain ⟨i, inside, le⟩ := h'.matched f second
      exact ⟨i, by rwa [h.size] at inside, le⟩

/-- The best of some rows takes a place where it is not worse. -/
theorem improves_write (single : Single F) (inside : i < F.size) {f : Row α} (among : f ∈ offered)
    (best : ∀ g ∈ offered, f.gene 0 ≤ g.gene 0) (le : f.gene 0 ≤ (F.row i).gene 0) :
    Improves F offered (writeAt F [i] #[f]) := by
  have here : Rows.row (writeAt F [i] #[f]) i = f := by
    simp [writeAt, Rows.row, inside]
  have elsewhere (j : Nat) (other : j ≠ i) : Rows.row (writeAt F [i] #[f]) j = F.row j := by
    apply row_eq_of_getElem?
    simp [writeAt, other.symm]
  refine ⟨size_writeAt _ _ _, fun j below => ?_, fun j below => ?_, fun g hg => ⟨i, inside, ?_⟩⟩
  · by_cases same : j = i
    · rw [same, here]
      exact le
    · rw [elsewhere j same]
      exact (single.row below).le_self
  · by_cases same : j = i
    · rw [same, here]
      exact .inr among
    · exact .inl (elsewhere j same)
  · rw [here]
    exact best g hg

/-- Rows are turned away where none of them is better. -/
theorem improves_keep (single : Single F) (inside : i < F.size)
    (best : ∀ g ∈ offered, (F.row i).gene 0 ≤ g.gene 0) : Improves F offered F :=
  ⟨rfl, fun _ below => (single.row below).le_self, fun _ _ => .inl rfl,
    fun g hg => ⟨i, inside, best g hg⟩⟩

end Rows

namespace Dominance

theorem notWorse_single {f g : Row α} (single : f.Single) :
    notWorse f g = true ↔ f.gene 0 ≤ g.gene 0 := by
  simp [notWorse, single.size]

variable [OrderedScalar α]

/-- A batch is compared as its rows are. -/
theorem notWorseRows_single {A B : Rows α} {i : Nat} (insideA : i < A.size) (insideB : i < B.size)
    (singleA : (A.row i).Single) (singleB : (B.row i).Single) :
    (notWorseRows A B)[i]? = some (decide ((A.row i).gene 0 ≤ (B.row i).gene 0)) := by
  rw [getElem?_notWorseRows insideA insideB, Option.some_inj, Bool.eq_iff_iff]
  simp only [Bool.not_eq_true', Bool.eq_false_iff, Ne, dominates_iff_lt singleB.size, decide_eq_true_eq]
  exact ⟨le_of_not_lt singleB.le_self singleA.le_self, fun le lt => not_le_of_lt lt le⟩

end Dominance

namespace Run

variable {run run' run'' : Run α P} {offered offered' : List (Row α)}

/-- The population has been evaluated, with a single objective. -/
structure Scored (run : Run α P) (F : Rows α) : Prop where
  known : run.F = some F
  size : F.size = run.popSize
  single : F.Single
  fresh : run.stalePlaces = []

/-- From one run to another the population improves by what is offered to it. -/
structure Improves (run : Run α P) (offered : List (Row α)) (run' : Run α P) : Prop where
  popSize : run'.popSize = run.popSize
  fresh : run.stalePlaces = [] → run'.stalePlaces = []
  fitness : ∀ F, run.F = some F → ∃ F', run'.F = some F' ∧ F.Improves offered F'

theorem Improves.scored {F : Rows α} (h : run.Improves offered run') (scored : run.Scored F)
    (offers : ∀ f ∈ offered, f.Single) : ∃ F', run'.Scored F' ∧ F.Improves offered F' := by
  obtain ⟨F', known, improves⟩ := h.fitness F scored.known
  refine ⟨F', ⟨known, ?_, improves.single scored.single offers, h.fresh scored.fresh⟩, improves⟩
  rw [improves.size, scored.size, h.popSize]

theorem Improves.congr (h : run.Improves offered run')
    (same : ∀ f, f ∈ offered' ↔ f ∈ offered) : run.Improves offered' run' := by
  refine ⟨h.popSize, h.fresh, fun F known => ?_⟩
  obtain ⟨F', known', improves⟩ := h.fitness F known
  exact ⟨F', known', improves.congr same⟩

/-- Marking every stale row as up to date leaves none that is stale. -/
theorem stalePlaces_mark {places : List Nat} (covered : ∀ i ∈ run.stalePlaces, i ∈ places) :
    (run.mark places false).stalePlaces = [] := by
  apply List.eq_nil_iff_forall_not_mem.mpr
  intro i hi
  obtain ⟨below, stale⟩ := mem_stalePlaces.mp hi
  rw [Array.getD_eq_getD_getElem?] at stale
  change ((writeAt run.stale places (Array.replicate places.length false))[i]?).getD false = true
    at stale
  rcases writeAt_cases places i with ⟨absent, kept⟩ | ⟨k, place, written⟩
  · apply absent
    apply covered
    rw [kept, ← Array.getD_eq_getD_getElem?] at stale
    exact mem_stalePlaces.mpr ⟨below, stale⟩
  · have there := (List.getElem?_eq_some_iff.mp place).1
    by_cases inside : i < run.stale.size
    · rw [written run.stale _ (by simp) inside] at stale
      simp [there] at stale
    · rw [Array.getElem?_eq_none (by rw [size_writeAt]; omega)] at stale
      cases stale

theorem stalePlaces_overwrite {places : List Nat} {X F : Rows α} (fresh : run.stalePlaces = []) :
    (run.overwrite places X F).stalePlaces = [] := by
  apply stalePlaces_mark
  intro i stale
  change i ∈ run.stalePlaces at stale
  rw [fresh] at stale
  cases stale

variable [OrderedScalar α]

theorem Improves.refl {F : Rows α} (scored : run.Scored F) : run.Improves [] run := by
  refine ⟨rfl, fun fresh => fresh, fun F' known => ⟨F', known, ?_⟩⟩
  rw [scored.known] at known
  cases known
  exact .refl scored.single

theorem Improves.trans (h : run.Improves offered run') (h' : run'.Improves offered' run'') :
    run.Improves (offered ++ offered') run'' := by
  refine ⟨h'.popSize.trans h.popSize, fun fresh => h'.fresh (h.fresh fresh), fun F known => ?_⟩
  obtain ⟨F', known', first⟩ := h.fitness F known
  obtain ⟨F'', known'', second⟩ := h'.fitness F' known'
  exact ⟨F'', known'', first.trans second⟩

/-- The rule for a loop in which every round improves the population. -/
theorem improves_foldl {ι : Type} {f : Run α P → ι → Run α P} {offers : ι → List (Row α)}
    {xs : List ι} {F : Rows α} (scored : run.Scored F)
    (single : ∀ x ∈ xs, ∀ g ∈ offers x, g.Single)
    (step : ∀ x ∈ xs, ∀ (run' : Run α P) F', run'.popSize = run.popSize → run'.Scored F' →
      run'.Improves (offers x) (f run' x)) : run.Improves (xs.flatMap offers) (xs.foldl f run) := by
  induction xs generalizing run F with
  | nil => exact .refl scored
  | cons x xs ih =>
    have first := step x List.mem_cons_self run F rfl scored
    obtain ⟨F', scored', -⟩ := first.scored scored (single x List.mem_cons_self)
    apply first.trans
    apply ih scored'
    · intro y hy
      exact single y (List.mem_cons_of_mem _ hy)
    · intro y hy run' F' popSize
      exact step y (List.mem_cons_of_mem _ hy) run' F' (popSize.trans first.popSize)

/-- A row is overwritten by the best of some that is not worse. -/
theorem improves_overwrite {F : Rows α} (scored : run.Scored F) {i : Nat} (inside : i < run.popSize)
    {x f : Row α} (among : f ∈ offered) (best : ∀ g ∈ offered, f.gene 0 ≤ g.gene 0)
    (le : f.gene 0 ≤ (F.row i).gene 0) :
    run.Improves offered (run.overwrite [i] #[x] #[f]) := by
  refine ⟨rfl, stalePlaces_overwrite, fun G stored => ?_⟩
  rw [scored.known] at stored
  cases stored
  refine ⟨writeAt F [i] #[f], ?_, Rows.improves_write scored.single ?_ among best le⟩
  · change run.F.map _ = _
    rw [scored.known]
    rfl
  · rwa [scored.size]

/-- A row stays if none of those that are offered is better. -/
theorem improves_keep {F : Rows α} (scored : run.Scored F) {i : Nat} (inside : i < run.popSize)
    (best : ∀ g ∈ offered, (F.row i).gene 0 ≤ g.gene 0) : run.Improves offered run := by
  refine ⟨rfl, fun fresh => fresh, fun G stored => ⟨G, stored, ?_⟩⟩
  rw [scored.known] at stored
  cases stored
  exact Rows.improves_keep scored.single (by rwa [scored.size]) best

omit [Scalar α] [OrderedScalar α] in
/-- A mask selects the indices at which it is set. -/
theorem mem_selected_range {mask : Array Bool} {n i : Nat} (h : i < n) :
    i ∈ selected mask (List.range n) ↔ mask[i]? = some true := by
  have entry (k : Nat) : (mask.toList.zip (List.range n))[k]? = some (true, i) ↔
      mask[k]? = some true ∧ k = i := by
    rw [List.getElem?_zip_eq_some, Array.getElem?_toList, List.getElem?_eq_some_iff]
    simp only [List.length_range, List.getElem_range, exists_prop]
    constructor
    · rintro ⟨set, -, same⟩
      exact ⟨set, same⟩
    · rintro ⟨set, rfl⟩
      exact ⟨set, h, rfl⟩
  have pair : i ∈ selected mask (List.range n) ↔ (true, i) ∈ mask.toList.zip (List.range n) := by
    simp [selected]
  rw [pair, List.mem_iff_getElem?]
  constructor
  · rintro ⟨k, here⟩
    obtain ⟨set, rfl⟩ := (entry k).mp here
    exact set
  · intro set
    exact ⟨i, (entry i).mpr ⟨set, rfl⟩⟩

omit [Scalar α] [OrderedScalar α] in
/-- What a mask selects is written where the mask is set. -/
theorem row_writeAt_selected {F newF : Rows α} (mask : Array Bool) {n i : Nat} (size : F.size = n)
    (sizeNew : newF.size = n) (inside : i < n) :
    Rows.row (writeAt F (selected mask (List.range n)) (selected mask newF.toList).toArray) i =
      if mask[i]? = some true then newF.row i else F.row i := by
  have lengths : newF.toList.length = (List.range n).length := by simp [sizeNew]
  rcases writeAt_cases (selected mask (List.range n)) i with ⟨absent, kept⟩ | ⟨k, place, written⟩
  · rw [if_neg (mt (mem_selected_range inside).mpr absent)]
    exact row_eq_of_getElem? (kept F _)
  · rw [if_pos ((mem_selected_range inside).mp (List.mem_of_getElem? place))]
    apply row_eq_of_getElem?
    rw [written F _ (by simp [length_selected mask lengths]) (by rwa [size])]
    rcases selected_cases mask k with ⟨j, found⟩ | none
    · have origin := found (List.range n)
      rw [place] at origin
      obtain ⟨below, entry⟩ := List.getElem?_eq_some_iff.mp origin.symm
      have same : j = i := by simpa using entry
      rw [← same]
      simpa using found newF.toList
    · rw [none] at place
      cases place

omit [Scalar α] [OrderedScalar α] in
theorem fitnessAt_range {F : Rows α} {n : Nat} (size : F.size = n) :
    fitnessAt F (List.range n) = F := by
  apply Array.ext
  · simp [fitnessAt, size]
  · intro i _ inside
    simp [fitnessAt, Rows.row, inside]

/-- One candidate for each row: it takes the place of its row unless it is worse. -/
theorem improves_accept {F : Rows α} (scored : run.Scored F) {newX newF : Rows α}
    (size : newF.size = run.popSize) (single : newF.Single) :
    run.Improves newF.toList (run.accept F (List.range run.popSize) newX newF).2 := by
  let mask := Dominance.notWorseRows newF F
  let F' : Rows α := writeAt F (selected mask (List.range run.popSize))
    (selected mask newF.toList).toArray
  have known : (run.accept F (List.range run.popSize) newX newF).2.F = some F' := by
    simp only [accept, fitnessAt_range scored.size]
    change run.F.map _ = _
    rw [scored.known]
    rfl
  have sizes : newF.size = F.size := by rw [size, scored.size]
  have row (i : Nat) (inside : i < F.size) :
      F'.row i = if (newF.row i).gene 0 ≤ (F.row i).gene 0 then newF.row i else F.row i := by
    have insideNew : i < newF.size := by rwa [sizes]
    have verdict := Dominance.notWorseRows_single insideNew inside (single.row insideNew)
      (scored.single.row inside)
    have below : i < run.popSize := by rwa [← scored.size]
    have written := row_writeAt_selected mask scored.size size below
    rw [verdict] at written
    simpa using written
  have improves : F.Improves newF.toList F' := by
    refine ⟨size_writeAt _ _ _, fun i inside => ?_, fun i inside => ?_, fun f hf => ?_⟩
    · rw [row i inside]
      split
      · assumption
      · exact (scored.single.row inside).le_self
    · rw [row i inside]
      split
      · exact .inr (Rows.row_mem (by rwa [sizes]))
      · exact .inl rfl
    · obtain ⟨i, insideNew, rfl⟩ := Rows.exists_row hf
      have inside : i < F.size := by rwa [← sizes]
      have total := le_total (single.row insideNew).le_self (scored.single.row inside).le_self
      refine ⟨i, inside, ?_⟩
      rw [row i inside]
      split
      · exact (single.row insideNew).le_self
      · exact total.resolve_left ‹_›
  refine ⟨rfl, stalePlaces_overwrite, fun G stored => ⟨F', known, ?_⟩⟩
  rw [scored.known] at stored
  cases stored
  exact improves

end Run

end BoxSearch
