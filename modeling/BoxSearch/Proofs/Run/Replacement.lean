import BoxSearch.Proofs.Except
import BoxSearch.Proofs.Run.Formed

/-!
What becomes of a population when some of its rows are replaced.

A replacement is given one position and one fitness vector for each of its indices. It writes all of
them or none, provided that the fitness vectors are as wide as those of the population. This last
condition is looked at when the positions are in place already. A single number for each index then
counts for every objective; otherwise the replacement fails halfway.
-/

namespace BoxSearch

section Writing

variable {β : Type}

/-- Values were written at places, one after another: a place has the last value that was written
for it, and where nothing was written everything is as before. -/
structure Written (places : List Nat) (values before after : Array β) : Prop where
  size : after.size = before.size
  last (k i : Nat) : i < before.size → places[k]? = some i → (∀ l, k < l → places[l]? ≠ some i) →
    after[i]? = values[k]?
  kept (i : Nat) : i ∉ places → after[i]? = before[i]?

theorem getElem?_writeAt_absent {places : List Nat} {i : Nat} (absent : i ∉ places)
    (xs values : Array β) : (writeAt xs places values)[i]? = xs[i]? := by
  rcases writeAt_cases places i with ⟨-, kept⟩ | ⟨k, place, -⟩
  · exact kept xs values
  · exact absurd (List.mem_of_getElem? place) absent

theorem getElem?_writeAt_last {places : List Nat} {i k : Nat} (place : places[k]? = some i)
    (last : ∀ l, k < l → places[l]? ≠ some i) {xs values : Array β}
    (enough : places.length ≤ values.size) (inside : i < xs.size) :
    (writeAt xs places values)[i]? = values[k]? := by
  obtain ⟨vs⟩ := values
  induction places generalizing xs vs k with
  | nil => simp at place
  | cons p places ih =>
    cases vs with
    | nil => simp at enough
    | cons v vs =>
      change (writeAt (xs.setIfInBounds p v) places vs.toArray)[i]? = _
      cases k with
      | zero =>
        have here : p = i := by simpa using place
        have absent : i ∉ places := by
          intro later
          obtain ⟨l, found⟩ := List.mem_iff_getElem?.mp later
          exact last (l + 1) (by omega) (by simpa using found)
        rw [getElem?_writeAt_absent absent, here]
        simp [inside]
      | succ k =>
        have later : ∀ l, k < l → places[l]? ≠ some i := by
          intro l after
          simpa using last (l + 1) (by omega)
        have inside' : i < (xs.setIfInBounds p v).size := by simpa using inside
        have found := ih (by simpa using place) later inside' vs (by simpa using enough)
        simpa using found

theorem written_writeAt {places : List Nat} {values : Array β}
    (enough : places.length ≤ values.size) (xs : Array β) :
    Written places values xs (writeAt xs places values) where
  size := size_writeAt xs places values
  last _ _ inside place last := getElem?_writeAt_last place last enough inside
  kept _ absent := getElem?_writeAt_absent absent xs values

end Writing

namespace Run

variable {α P : Type} [Scalar α]

/-- The index stands for one of `n` rows, counted from the first one or back from the last. -/
def Names (n : Nat) (i : Int) : Prop :=
  -(n : Int) ≤ i ∧ i < n

instance (n : Nat) (i : Int) : Decidable (Names n i) :=
  inferInstanceAs (Decidable (_ ∧ _))

/-- The row that an index stands for. -/
def named (n : Nat) (i : Int) : Nat :=
  (i % n).toNat

theorem placeOf_named {n : Nat} {i : Int} (names : Names n i) : placeOf n i = .ok (named n i) := by
  obtain ⟨low, high⟩ := names
  by_cases front : 0 ≤ i
  · rw [placeOf, if_pos ⟨front, high⟩, named, Int.emod_eq_of_lt front high]
  · have wrapped : i % n = i + n := by
      rw [← Int.add_emod_right]
      exact Int.emod_eq_of_lt (by omega) (by omega)
    rw [placeOf, if_neg (by omega), if_pos ⟨by omega, low⟩, named, wrapped]

theorem names_of_placeOf {n p : Nat} {i : Int} (h : placeOf n i = .ok p) : Names n i := by
  rw [placeOf] at h
  split at h
  case isTrue front => exact ⟨by omega, front.2⟩
  case isFalse =>
    split at h
    case isTrue back => exact ⟨back.2, by omega⟩
    case isFalse => cases h

/-- The rows that indices stand for can be found if and only if every index stands for one. -/
theorem places_eq_ok {run : Run α P} {indices : List Int}
    (names : ∀ i ∈ indices, Names run.popSize i) :
    run.places indices = .ok (indices.map (named run.popSize)) :=
  mapM_eq_ok fun i hi => placeOf_named (names i hi)

theorem names_of_places {run : Run α P} {indices : List Int} {places : List Nat}
    (h : run.places indices = .ok places) : ∀ i ∈ indices, Names run.popSize i := by
  intro i hi
  obtain ⟨p, -, found⟩ := (matched_of_mapM_eq_ok h).1 i hi
  exact names_of_placeOf found

/-- Every index stands for a row, and there is one position for each index and some fitness. -/
structure Suited (run : Run α P) (indices : List Int) (X F : Tensor α) : Prop where
  names : ∀ i ∈ indices, Names run.popSize i
  positions : X.entries.size = indices.length * run.dim
  fitness : F.entries.size % indices.length = 0

/-- Everything fits but the width of the fitness, which is not the number of objectives. -/
structure Misfits (w : Nat) (run : Run α P) (indices : List Int) (X F : Tensor α) : Prop where
  some : indices ≠ []
  suited : Suited run indices X F
  width : F.entries.size ≠ indices.length * w

/-- Rows of a population were overwritten with positions and fitness, and are no longer stale. Each
position was moved into the box, and the fitness is as wide as the population's. -/
structure Replaced (w : Nat) (places : List Nat) (X F : Rows α) (run run' : Run α P) : Prop where
  positions : Written places (run.bounds.clipRows X) run.X run'.X
  fitness : ∃ stored stored', run.F = some stored ∧ run'.F = some stored' ∧
    Written places F stored stored'
  wide : F.Shaped places.length w
  marks : ∀ i < run.popSize, run'.stale[i]? = if i ∈ places then some false else run.stale[i]?
  frame : run' = { run with X := run'.X, F := run'.F, stale := run'.stale }

theorem replaced_overwrite {run : Run α P} (formed : run.Formed) {stored : Rows α}
    (evaluated : run.F = some stored) {places : List Nat} {X F : Rows α} {w : Nat}
    (size : X.size = places.length) (wide : F.Shaped places.length w) :
    Replaced w places X F run (run.overwrite places X F) := by
  have positions : places.length ≤ (run.bounds.clipRows X).size := by
    rw [Bounds.size_clipRows, size]
  have written : (run.overwrite places X F).F = some (writeAt stored places F) := by
    change run.F.map _ = _
    rw [evaluated]
    rfl
  refine ⟨written_writeAt positions _, ⟨stored, _, evaluated, written, ?_⟩, wide, ?_, rfl⟩
  · exact written_writeAt (Nat.le_of_eq wide.size.symm) stored
  · intro i inside
    exact stale_mark (Nat.lt_of_lt_of_eq inside formed.marks.symm)

end Run

namespace Search

open Run

variable {σ α P : Type} [Scalar α] {s : Run α P × Session σ} {indices : List Int} {X F : Tensor α}
  {w : Nat}

/-- One number for each of `n` indices, taken for all objectives. -/
def spread (n w : Nat) (F : Tensor α) : Rows α :=
  (Tensor.cut n 1 F.entries).map fun f => Row.tabulate w fun _ => f.gene 0

/-- A replacement that does not suit the run is turned away before anything is changed. -/
theorem replace_of_unsuited (evaluated : s.1.F.isSome = true) (some : indices ≠ [])
    (unsuited : ¬Suited s.1 indices X F) :
    ∃ e, (replace indices X F).run s = (.error e, s) := by
  obtain ⟨stored, evaluated⟩ := Option.isSome_iff_exists.mp evaluated
  rw [replace, if_neg (by simpa using some), run_bind, run_current]
  simp only [evaluated, run_bind, run_ofExcept]
  cases positions : X.rowsExactly indices.length s.1.dim with
  | error e => exact ⟨e, rfl⟩
  | ok rows =>
  cases fitness : F.rowsCount indices.length with
  | error e => exact ⟨e, rfl⟩
  | ok found =>
  cases places : s.1.places indices with
  | error e => exact ⟨e, rfl⟩
  | ok places' =>
    refine absurd ⟨names_of_places places, ?_, ?_⟩ unsuited
    · by_contra other
      simp [Tensor.rowsExactly, other] at positions
    · by_contra uneven
      simp [Tensor.rowsCount, some, uneven] at fitness

/-- A replacement that suits the run first moves the positions in. What becomes of it then depends
on how many numbers of fitness there are for each index. -/
theorem replace_of_suited {stored : Rows α} (evaluated : s.1.F = some stored)
    (width : (stored.row 0).size = w) (some : indices ≠ []) (suited : Suited s.1 indices X F) :
    (replace indices X F).run s =
      let places := indices.map (named s.1.popSize)
      let positions := Tensor.cut indices.length s.1.dim X.entries
      if F.entries.size = indices.length * w then
        (.ok (), s.1.overwrite places positions (Tensor.cut indices.length w F.entries), s.2)
      else if F.entries.size = indices.length then
        (.ok (), s.1.overwrite places positions (spread indices.length w F), s.2)
      else (.error (.fault .value), s.1.put places positions, s.2) := by
  have count : 0 < indices.length := List.length_pos_iff.mpr some
  have positions : X.rowsExactly indices.length s.1.dim =
      .ok (Tensor.cut indices.length s.1.dim X.entries) := by
    simp [Tensor.rowsExactly, suited.positions]
  obtain ⟨v, size⟩ := Nat.dvd_of_mod_eq_zero suited.fitness
  have fitness : F.rowsCount indices.length =
      .ok (v, Tensor.cut indices.length v F.entries) := by
    simp [Tensor.rowsCount, some, size, Nat.mul_div_cancel_left _ count]
  have places := places_eq_ok suited.names
  have same : F.entries.size = indices.length * w ↔ v = w := by
    rw [size]
    exact Nat.mul_right_inj (by omega)
  have single : F.entries.size = indices.length ↔ v = 1 := by
    rw [size]
    simp [some]
  rw [replace, if_neg (by simpa using some), run_bind, run_current]
  simp only [evaluated, run_bind, run_ofExcept, positions, fitness, places, width, same, single,
    beq_iff_eq]
  by_cases wide : v = w
  · rw [if_pos wide, if_pos wide, ← wide]
    rfl
  by_cases one : v = 1
  · rw [if_neg wide, if_neg wide, if_pos one, if_pos one, one]
    rfl
  · rw [if_neg wide, if_neg wide, if_neg one, if_neg one]
    rfl

end Search

namespace Run

open Search

variable {σ P : Type} {evaluator : Evaluator σ Float P} {s : Run Float P × Session σ}

theorem replaced_nothing {run : Run Float P} {stored : Rows Float} {w : Nat}
    (evaluated : run.F = some stored) (X F : Rows Float) (none : F.size = 0) :
    Replaced w [] X F run run where
  positions := ⟨rfl, by simp, fun _ _ => rfl⟩
  fitness := ⟨stored, stored, evaluated, evaluated, rfl, by simp, fun _ _ => rfl⟩
  wide := ⟨none, by simp [Array.eq_empty_of_size_eq_zero none]⟩
  marks := by simp
  frame := rfl

/-- In every state of a run whose population has been evaluated, and for whatever indices, positions
and fitness. Unless the width of the fitness is all that is wrong, a replacement either overwrites
all rows that it names, the last time a row is named counting, and leaves the others alone; or it
fails and changes nothing. It does the former if and only if there is one position for each index,
one full fitness row, and a row that the index stands for. If only the width is wrong, a single
number is taken for all objectives; otherwise the replacement fails after it has moved the
positions, while the fitness and the marks are still those of the rows that were there before. -/
theorem replacement_outcome (full : evaluator.Full) (visited : Visited evaluator s)
    (evaluated : s.1.F.isSome = true) (indices : List Int) (X F : Tensor Float) :
    ∃ w, s.1.Measured w ∧
      let outcome := (replace indices X F).run s
      let places := indices.map (named s.1.popSize)
      let positions := Tensor.cut indices.length s.1.dim X.entries
      (¬Misfits w s.1 indices X F →
        (indices = [] ∨ Suited s.1 indices X F → ∃ run', outcome = (.ok (), run', s.2) ∧
          Replaced w places positions (Tensor.cut indices.length w F.entries) s.1 run') ∧
        (¬(indices = [] ∨ Suited s.1 indices X F) → ∃ e, outcome = (.error e, s))) ∧
      (Misfits w s.1 indices X F →
        (F.entries.size = indices.length → ∃ run', outcome = (.ok (), run', s.2) ∧
          Replaced w places positions (spread indices.length w F) s.1 run') ∧
        (F.entries.size ≠ indices.length → ∃ run',
          outcome = (.error (.fault .value), run', s.2) ∧
          Written places (s.1.bounds.clipRows positions) s.1.X run'.X ∧
          run' = { s.1 with X := run'.X })) := by
  have formed := visited_formed full visited
  obtain ⟨stored, known⟩ := Option.isSome_iff_exists.mp evaluated
  obtain ⟨w, measured, -⟩ := formed.fitness stored known
  have width := (formed.size_row known measured).2
  refine ⟨w, measured, fun fits => ⟨fun suits => ?_, fun unsuited => ?_⟩, fun misfits => ?_⟩
  · by_cases none : indices = []
    · subst none
      exact ⟨s.1, rfl, replaced_nothing known _ _ (Tensor.size_cut _ _ _)⟩
    have suited := suits.resolve_left none
    have wide : F.entries.size = indices.length * w := by
      by_contra narrow
      exact fits ⟨none, suited, narrow⟩
    have outcome := replace_of_suited known width none suited
    rw [if_pos wide] at outcome
    refine ⟨_, outcome, replaced_overwrite formed known (by simp) ?_⟩
    refine ⟨by simp, fun f hf => ?_⟩
    exact Tensor.even_cut (Nat.le_of_eq wide.symm) f (by simpa using hf)
  · have some : indices ≠ [] := fun none => unsuited (.inl none)
    exact replace_of_unsuited evaluated some fun suited => unsuited (.inr suited)
  · obtain ⟨some, suited, narrow⟩ := misfits
    have outcome := replace_of_suited known width some suited
    rw [if_neg narrow] at outcome
    constructor
    · intro single
      rw [if_pos single] at outcome
      refine ⟨_, outcome, replaced_overwrite formed known (by simp) ?_⟩
      refine ⟨by simp [spread], fun f hf => ?_⟩
      obtain ⟨g, -, rfl⟩ := Array.mem_map.mp hf
      exact Row.size_tabulate _ _
    · intro several
      rw [if_neg several] at outcome
      exact ⟨_, outcome, written_writeAt (by simp [Bounds.clipRows]) _, rfl⟩

/-- Answers a point in one dimension with its distance from either border. -/
def fromBorders : Evaluator Unit Float Nat :=
  fun X => return ⟨.ofRows 2 (X.map fun x => #[x.gene 0, 1.0 - x.gene 0]), none⟩

theorem fromBorders_full : fromBorders.Full := by
  intro rows session block session' answered
  cases answered
  have even : ∀ r ∈ (rows.map fun x => #[x.gene 0, 1.0 - x.gene 0]).toList, r.size = 2 := by
    simp
  simp [Block.Full, Tensor.ofRows, Tensor.size_flatten even, Tensor.places]

/-- Two points in one dimension that were evaluated. -/
def bothRated : Run Float Nat × Session Unit :=
  ((Call.perform fromBorders .evaluateAll).run
    ((Call.perform fromBorders (.setPositions ⟨[2, 1], #[0.25, 0.75]⟩ none)).run
      (.start .unitInterval 2 none .absent 0, ⟨(), #[]⟩)).2).2

theorem bothRated_visited : Visited fromBorders bothRated :=
  .called (.called (.start .unitInterval (by decide) none .absent 0 ⟨(), #[]⟩) _) _

theorem bothRated_measured : bothRated.1.Measured 2 :=
  ⟨by decide +kernel, by decide +kernel⟩

/-- Both indices stand for the second row. It takes what comes with the later one, moved into the
box, and the first row stays as it was. -/
theorem replacement_outcome_repeated :
    ∃ run', (replace [-1, 1] (.ofRows 1 #[#[0.5], #[2.0]])
        (.ofRows 2 #[#[1.0, 2.0], #[3.0, 4.0]])).run bothRated = (.ok (), run', bothRated.2) ∧
      Replaced 2 [1, 1] #[#[0.5], #[2.0]] #[#[1.0, 2.0], #[3.0, 4.0]] bothRated.1 run' ∧
      run'.X[1]? = some (bothRated.1.bounds.clip #[2.0]) ∧ run'.X[0]? = bothRated.1.X[0]? := by
  have size : bothRated.1.popSize = 2 := by decide +kernel
  have dim : bothRated.1.dim = 1 := by decide +kernel
  have suited : Suited bothRated.1 [-1, 1] (.ofRows 1 #[#[0.5], #[2.0]])
      (.ofRows 2 #[#[1.0, 2.0], #[3.0, 4.0]]) :=
    ⟨by rw [size]; decide, by rw [dim]; decide, by decide⟩
  obtain ⟨w, measured, fits, -⟩ := replacement_outcome fromBorders_full bothRated_visited
    (by decide +kernel) [-1, 1] (.ofRows 1 #[#[0.5], #[2.0]])
    (.ofRows 2 #[#[1.0, 2.0], #[3.0, 4.0]])
  obtain rfl := measured.unique bothRated_measured
  obtain ⟨run', outcome, replaced⟩ := (fits fun misfits => misfits.width (by decide)).1 (.inr suited)
  have places : [-1, 1].map (named bothRated.1.popSize) = [1, 1] := by rw [size]; decide
  have positions : Tensor.cut 2 1 #[#[0.5], #[2.0]].flatten = (#[#[0.5], #[2.0]] : Rows Float) :=
    Tensor.cut_flatten (by simp)
  have fitness : Tensor.cut 2 2 #[#[1.0, 2.0], #[3.0, 4.0]].flatten =
      (#[#[1.0, 2.0], #[3.0, 4.0]] : Rows Float) :=
    Tensor.cut_flatten (by simp)
  simp only [places, dim, Tensor.ofRows, List.length_cons, List.length_nil, Nat.zero_add,
    Nat.reduceAdd, positions, fitness] at replaced
  have last : ∀ l, 1 < l → [1, 1][l]? ≠ some 1 := by
    intro l after
    have beyond : [1, 1][l]? = none := List.getElem?_eq_none after
    simp [beyond]
  refine ⟨run', outcome, replaced, ?_, replaced.positions.kept 0 (by decide)⟩
  rw [replaced.positions.last 1 1 (by decide +kernel) rfl last]
  simp [Bounds.clipRows]

/-- Three numbers are no fitness of a row with two objectives. The replacement fails, but the row
has moved to the new position all the same, and is not stale. -/
theorem replacement_torn :
    ∃ e s', (replace [0] ⟨[1, 1], #[0.5]⟩ ⟨[1, 3], #[1.0, 2.0, 3.0]⟩).run bothRated =
        (.error e, s') ∧ s'.1.X ≠ bothRated.1.X ∧ s'.1.F = bothRated.1.F ∧
          s'.1.stale[0]? = some false := by
  have size : bothRated.1.popSize = 2 := by decide +kernel
  have suited : Suited bothRated.1 [0] ⟨[1, 1], #[0.5]⟩ ⟨[1, 3], #[1.0, 2.0, 3.0]⟩ :=
    ⟨by rw [size]; decide, by decide +kernel, by decide⟩
  have formed := visited_formed fromBorders_full bothRated_visited
  obtain ⟨stored, known, shaped⟩ : ∃ F, bothRated.1.F = some F ∧ (F.row 0).size = 2 := by
    obtain ⟨F, known⟩ := Option.isSome_iff_exists.mp
      (by decide +kernel : bothRated.1.F.isSome = true)
    exact ⟨F, known, (formed.size_row known bothRated_measured).2⟩
  have outcome := replace_of_suited known shaped (by decide) suited
  rw [if_neg (by decide), if_neg (by decide)] at outcome
  refine ⟨_, _, outcome, fun same => ?_, rfl, by decide +kernel⟩
  have first := congrArg (fun X => (Rows.row X 0).gene 0 == 0.5) same
  revert first
  decide +kernel

end Run

end BoxSearch
