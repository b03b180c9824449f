import BoxSearch.Proofs.Run.Improvement
import BoxSearch.Proofs.Run.Replacement

/-!
Which rows of a run are stale.

A row is stale from the time it is moved, or from the start, until it is evaluated, replaced or
seeded. The marks say the same as the list of all calls that succeeded: the row was covered by none
of them since it was written last. An evaluation of the population is therefore one of exactly the
rows that need it.
-/

namespace BoxSearch

namespace Run

open Search

variable {σ P : Type} {evaluator : Evaluator σ Float P} {s s' : Run Float P × Session σ}
  {run run' : Run Float P} {calls : List (Call σ)}

namespace Call

/-- If it succeeds, the call moves row `i` out of `n`. -/
def Writes (n i : ℕ) : Call σ → Prop
  | populate _ => True
  | setPositions _ none => True
  | setPositions _ (some indices) => i ∈ indices.map (named n)
  | _ => False

/-- If it succeeds, the call leaves row `i` out of `n` with a fitness. -/
def Covers (n i : ℕ) : Call σ → Prop
  | evaluateAll => True
  | seed _ _ => True
  | replace indices _ _ => i ∈ indices.map (named n)
  | _ => False

end Call

/-- One of the calls covers row `i` out of `n`, and none that came after it writes the row. -/
def Covered (n : ℕ) (calls : List (Call σ)) (i : ℕ) : Prop :=
  ∃ before call after, calls = before ++ call :: after ∧ call.Covers n i ∧
    ∀ later ∈ after, ¬later.Writes n i

theorem covered_snoc {n i : ℕ} {call : Call σ} :
    Covered n (calls ++ [call]) i ↔ call.Covers n i ∨ ¬call.Writes n i ∧ Covered n calls i := by
  constructor
  · rintro ⟨before, covering, after, split, covers, quiet⟩
    rcases List.eq_nil_or_concat after with rfl | ⟨after, last, rfl⟩
    · obtain ⟨-, same⟩ := List.append_inj' split rfl
      cases same
      exact .inl covers
    · rw [List.concat_eq_append, ← List.cons_append, ← List.append_assoc] at split
      obtain ⟨front, same⟩ := List.append_inj' split rfl
      cases same
      refine .inr ⟨quiet _ (by simp), before, covering, after, front, covers, fun later among => ?_⟩
      exact quiet later (by simp [among])
  · rintro (covers | ⟨still, before, covering, after, rfl, covers, quiet⟩)
    · exact ⟨calls, call, [], rfl, covers, nofun⟩
    · refine ⟨before, covering, after ++ [call], by simp, covers, fun later among => ?_⟩
      rcases List.mem_append.mp among with old | new
      · exact quiet later old
      · obtain rfl := List.mem_singleton.mp new
        exact still

/-- Moving the row into the box changes nothing. -/
def Clipped (run : Run Float P) (i : ℕ) : Prop :=
  run.bounds.clip (run.X.row i) = run.X.row i

/-- A change of the run that moves some rows and covers others. Rows that are neither moved nor
covered keep their marks, though not always their positions. -/
structure Touched (writes covers : ℕ → Prop) (run run' : Run Float P) : Prop where
  popSize : run'.popSize = run.popSize
  bounds : run'.bounds = run.bounds
  written : ∀ i < run.popSize, writes i → run'.stale[i]? = some true ∧ run'.Clipped i
  covered : ∀ i < run.popSize, covers i → run'.stale[i]? = some false
  kept : ∀ i < run.popSize, ¬writes i → ¬covers i → run'.stale[i]? = run.stale[i]? ∧
    (run'.X.row i = run.X.row i ∨ run'.Clipped i)
  fitness : run'.F.isSome = true ∨
    run.F = none ∧ ∀ i < run.popSize, run'.stale[i]? = some false → run.stale[i]? = some false

/-- Nothing is moved and nothing covered. -/
abbrev Untouched (run run' : Run Float P) : Prop :=
  Touched (fun _ => False) (fun _ => False) run run'

theorem untouched_of_same (popSize : run'.popSize = run.popSize) (bounds : run'.bounds = run.bounds)
    (X : run'.X = run.X) (F : run'.F = run.F) (stale : run'.stale = run.stale) :
    Untouched run run' := by
  refine ⟨popSize, bounds, fun _ _ => False.elim, fun _ _ => False.elim, fun i _ _ _ => ?_, ?_⟩
  · exact ⟨by rw [stale], .inl (by rw [X])⟩
  · rw [F, stale]
    cases run.F with
    | none => exact .inr ⟨rfl, fun _ _ fresh => fresh⟩
    | some F => exact .inl rfl

theorem untouched_of_redrawn (h : Redrawn run run') : Untouched run run' := by
  obtain ⟨_, rfl⟩ := h
  exact untouched_of_same rfl rfl rfl rfl rfl

theorem untouched_of_assesses (h : Assesses run run') : Untouched run run' := by
  obtain ⟨_, _, _, _, _, rfl⟩ := h
  exact untouched_of_same rfl rfl rfl rfl rfl

/-- Changes that do not concern the population may come before. -/
theorem Touched.after {writes covers : ℕ → Prop} {run₁ : Run Float P}
    (h : Touched writes covers run₁ run') (popSize : run₁.popSize = run.popSize)
    (bounds : run₁.bounds = run.bounds) (X : run₁.X = run.X) (F : run₁.F = run.F)
    (stale : run₁.stale = run.stale) : Touched writes covers run run' := by
  obtain ⟨popSize', bounds', written, covered, kept, fitness⟩ := h
  rw [popSize, X, F, stale] at *
  exact ⟨popSize', bounds'.trans bounds, written, covered, kept, fitness⟩

section Writing

variable {places : List ℕ} {X F : Rows Float}

theorem getElem?_writeAt_nodup {β : Type} {xs values : Array β} (nodup : places.Nodup)
    (enough : places.length ≤ values.size) {k i : ℕ} (place : places[k]? = some i)
    (inside : i < xs.size) : (writeAt xs places values)[i]? = values[k]? := by
  apply getElem?_writeAt_last place _ enough inside
  intro l later again
  have same := (List.getElem?_inj (List.getElem?_eq_some_iff.mp place).1 nodup).mp
    (place.trans again.symm)
  omega

/-- Rows are put where they belong after they were moved into the box. -/
theorem row_put (enough : places.length ≤ X.size) {i : ℕ} (inside : i < run.X.size) :
    (i ∉ places ∧ (run.put places X).X.row i = run.X.row i) ∨
      i ∈ places ∧ (run.put places X).Clipped i := by
  rcases writeAt_cases places i with ⟨absent, kept⟩ | ⟨k, place, written⟩
  · refine .inl ⟨absent, ?_⟩
    rw [Rows.row, Rows.row, Array.getD_eq_getD_getElem?, Array.getD_eq_getD_getElem?]
    exact congrArg (·.getD #[]) (kept run.X _)
  · refine .inr ⟨List.mem_of_getElem? place, ?_⟩
    have below : k < X.size := Nat.lt_of_lt_of_le (List.getElem?_eq_some_iff.mp place).1 enough
    have row : (run.put places X).X.row i = run.bounds.clip X[k] := by
      have here := written run.X (run.bounds.clipRows X) (by simpa [Bounds.clipRows] using enough)
        inside
      rw [Rows.row, Array.getD_eq_getD_getElem?]
      refine (congrArg (·.getD #[]) here).trans ?_
      simp [Bounds.clipRows, below]
    rw [Clipped, row]
    exact Bounds.clip_clip _ _

theorem untouched_put (formed : run.Formed) (enough : places.length ≤ X.size) :
    Untouched run (run.put places X) := by
  refine ⟨rfl, rfl, fun _ _ => False.elim, fun _ _ => False.elim, fun i inside _ _ => ⟨rfl, ?_⟩, ?_⟩
  · exact (row_put enough (by rwa [formed.positions.size])).imp And.right And.right
  · cases known : run.F with
    | none => exact .inr ⟨rfl, fun _ _ fresh => fresh⟩
    | some F => exact .inl (by simp [put, known])

theorem touched_move (formed : run.Formed) (enough : places.length ≤ X.size) :
    Touched (· ∈ places) (fun _ => False) run (run.move places X) := by
  have marks (i : ℕ) (inside : i < run.popSize) :
      (run.move places X).stale[i]? = if i ∈ places then some true else run.stale[i]? := by
    change ((run.put places X).mark places true).stale[i]? = _
    exact stale_mark (Nat.lt_of_lt_of_eq inside formed.marks.symm)
  have rows (i : ℕ) (inside : i < run.popSize) :
      (i ∉ places ∧ (run.put places X).X.row i = run.X.row i) ∨
        i ∈ places ∧ (run.put places X).Clipped i :=
    row_put enough (by rwa [formed.positions.size])
  refine ⟨rfl, rfl, fun i inside moved => ?_, fun _ _ => False.elim,
    fun i inside absent _ => ?_, ?_⟩
  · rw [marks i inside, if_pos moved]
    exact ⟨rfl, ((rows i inside).resolve_left fun ⟨absent, _⟩ => absent moved).2⟩
  · rw [marks i inside, if_neg absent]
    exact ⟨rfl, .inl ((rows i inside).resolve_right fun ⟨moved, _⟩ => absent moved).2⟩
  · cases known : run.F with
    | some F => exact .inl (by simp [move, put, mark, known])
    | none =>
      refine .inr ⟨rfl, fun i inside fresh => ?_⟩
      rw [marks i inside] at fresh
      split at fresh
      · cases fresh
      · exact fresh

/-- Rows that are marked as up to date, once there is fitness, are covered. -/
theorem touched_mark (marks : run.stale.size = run.popSize) (rated : run.F.isSome = true) :
    Touched (fun _ => False) (· ∈ places) run (run.mark places false) := by
  have marked (i : ℕ) (inside : i < run.popSize) :
      (run.mark places false).stale[i]? = if i ∈ places then some false else run.stale[i]? :=
    stale_mark (Nat.lt_of_lt_of_eq inside marks.symm)
  refine ⟨rfl, rfl, fun _ _ => False.elim, fun i inside covered => ?_,
    fun i inside _ absent => ⟨?_, .inl rfl⟩, .inl rated⟩
  · rw [marked i inside, if_pos covered]
  · rw [marked i inside, if_neg absent]

/-- After rows were put somewhere they may be covered. -/
theorem Untouched.trans {covers : ℕ → Prop} {run₁ : Run Float P} (h : Untouched run run₁)
    (h' : Touched (fun _ => False) covers run₁ run') (rated : run'.F.isSome = true) :
    Touched (fun _ => False) covers run run' := by
  refine ⟨h'.popSize.trans h.popSize, h'.bounds.trans h.bounds, fun _ _ => False.elim,
    fun i inside => h'.covered i (h.popSize ▸ inside), fun i inside quiet absent => ?_, .inl rated⟩
  obtain ⟨mark, row⟩ := h.kept i inside quiet quiet
  obtain ⟨mark', row'⟩ := h'.kept i (h.popSize ▸ inside) quiet absent
  refine ⟨mark'.trans mark, ?_⟩
  rcases row' with same | clipped
  · rw [Clipped, h'.bounds, same]
    exact row
  · exact .inr clipped

theorem touched_overwrite (formed : run.Formed) (enough : places.length ≤ X.size)
    (rated : run.F.isSome = true) :
    Touched (fun _ => False) (· ∈ places) run (run.overwrite places X F) := by
  have put := untouched_put formed enough
  let written : Run Float P :=
    { run.put places X with F := (run.put places X).F.map (writeAt · places F) }
  have wrote : written.F.isSome = true := Option.isSome_map.trans rated
  have mid : Untouched run written :=
    ⟨put.popSize, put.bounds, put.written, put.covered, put.kept, .inl wrote⟩
  have covered : Touched (fun _ => False) (· ∈ places) written (written.mark places false) :=
    touched_mark formed.marks wrote
  exact mid.trans covered wrote

theorem touched_settle (formed : run.Formed) :
    Touched (fun _ => False) (· ∈ places) run (run.settle places F) := by
  let rated : Run Float P := { run with F := some (writeAt (run.knownFitness F) places F) }
  have mid : Untouched run rated :=
    ⟨rfl, rfl, fun _ _ => False.elim, fun _ _ => False.elim, fun _ _ _ _ => ⟨rfl, .inl rfl⟩,
      .inl rfl⟩
  have covered : Touched (fun _ => False) (· ∈ places) rated (rated.mark places false) :=
    touched_mark formed.marks rfl
  exact mid.trans covered rfl

end Writing

section Calls

variable (evaluator)

/-- Rows that are up to date as it is may count as covered. -/
theorem Touched.whole {covers : ℕ → Prop} (h : Touched (fun _ => False) covers run run')
    (fresh : ∀ i < run.popSize, ¬covers i → run.stale[i]? = some false) :
    Touched (fun _ => False) (fun _ => True) run run' := by
  refine ⟨h.popSize, h.bounds, h.written, fun i inside _ => ?_, fun _ _ _ => absurd trivial,
    h.fitness⟩
  by_cases covered : covers i
  · exact h.covered i inside covered
  · exact (h.kept i inside id covered).1.trans (fresh i inside covered)

theorem evaluateAll_touched (full : evaluator.Full) (formed : s.1.Formed) :
    Ends (evaluateAll evaluator) s (fun s' => Untouched s.1 s'.1)
      fun _ s' => Touched (fun _ => False) (fun _ => True) s.1 s'.1 := by
  have fresh (i : ℕ) (inside : i < s.1.popSize) (absent : i ∉ s.1.stalePlaces) :
      s.1.stale[i]? = some false := by
    have below : i < s.1.stale.size := by rwa [formed.marks]
    rw [mem_stalePlaces] at absent
    simpa [inside, below] using absent
  simp only [evaluateAll, ends_bind, ends_ite, ends_current, ends_pure, ends_update]
  constructor
  · intro none
    have none : s.1.stalePlaces = [] := by simpa using none
    have same : Untouched s.1 s.1 := untouched_of_same rfl rfl rfl rfl rfl
    exact same.whole fun i inside _ => fresh i inside (by simp [none])
  · intro some
    refine ((evaluate_assesses _).and_ensures (evaluate_formed full formed _).ensures).mono
      (fun s₁ same => untouched_of_assesses same) ?_
    rintro F s₁ ⟨⟨_, _, _, _, _, same⟩, formed₁, -⟩
    have settled : Touched (fun _ => False) (· ∈ s.1.stalePlaces) s₁.1
        (s₁.1.settle s.1.stalePlaces F) := touched_settle formed₁
    rw [same] at settled ⊢
    have since : Touched _ _ s.1 _ := settled.after rfl rfl rfl rfl rfl
    exact since.whole fresh

theorem setPositions_touched (formed : s.1.Formed) (X : Tensor Float)
    (indices : Option (List Int)) :
    Ends (setPositions X indices : Search σ Float P Unit) s (fun s' => Untouched s.1 s'.1)
      fun _ s' => Touched ((Call.setPositions X indices : Call σ).Writes s.1.popSize)
        (fun _ => False) s.1 s'.1 := by
  have same : Untouched s.1 s.1 := untouched_of_same rfl rfl rfl rfl rfl
  simp only [setPositions, ends_bind, ends_current]
  cases indices with
  | none =>
    simp only [ends_bind, ends_ofExcept, ends_update]
    refine ⟨fun rows cut => ?_, fun _ _ => same⟩
    have moved : Touched (· ∈ List.range s.1.popSize) (fun _ => False) s.1
        (s.1.move (List.range s.1.popSize) rows) :=
      touched_move formed (by simp [Tensor.size_rowsExactly cut])
    refine ⟨moved.popSize, moved.bounds, fun i inside _ => ?_, moved.covered,
      fun _ _ still => absurd trivial still, moved.fitness⟩
    exact moved.written i inside (List.mem_range.mpr inside)
  | some indices =>
    simp only [ends_bind, ends_ofExcept, ends_update]
    refine ⟨fun rows cut => ⟨fun places found => ?_, fun _ _ => same⟩, fun _ _ => same⟩
    have named := places_eq_ok (names_of_places found)
    rw [found] at named
    cases named
    exact touched_move formed (by simp [Tensor.size_rowsExactly cut])

theorem replace_touched (formed : s.1.Formed) (indices : List Int) (X F : Tensor Float) :
    Ends (replace indices X F : Search σ Float P Unit) s (fun s' => Untouched s.1 s'.1)
      fun _ s' => Touched (fun _ => False)
        ((Call.replace indices X F : Call σ).Covers s.1.popSize) s.1 s'.1 := by
  have same : Untouched s.1 s.1 := untouched_of_same rfl rfl rfl rfl rfl
  simp only [replace, ends_ite, ends_bind, ends_current, ends_pure]
  constructor
  · intro empty
    have empty : indices = [] := by simpa using empty
    subst empty
    exact ⟨rfl, rfl, same.written, fun i _ covered => absurd covered (by simp [Call.Covers]),
      fun i inside still _ => same.kept i inside still still, same.fitness⟩
  intro _
  cases stored : s.1.F with
  | none => exact same
  | some F' =>
    simp only [ends_bind, ends_ofExcept, ends_update, ends_ite, ends_throw]
    refine ⟨fun rows cut => ⟨fun fitness read => ⟨fun places found => ?_, fun _ _ => same⟩,
      fun _ _ => same⟩, fun _ _ => same⟩
    have named := places_eq_ok (names_of_places found)
    rw [found] at named
    cases named
    have enough : (indices.map (named s.1.popSize)).length ≤ rows.size := by
      simp [Tensor.size_rowsExactly cut]
    have rated : s.1.F.isSome = true := by rw [stored]; rfl
    refine ⟨fun _ => touched_overwrite formed enough rated, fun _ => ⟨fun _ => ?_, fun _ => ?_⟩⟩
    · exact touched_overwrite formed enough rated
    · exact untouched_put formed enough

theorem seed_touched (X F : Rows Float) (width : ℕ) :
    Ends (seed X F width : Search σ Float P Unit) s (fun s' => Untouched s.1 s'.1)
      fun _ s' => Touched (fun _ => False) (fun _ => True) s.1 s'.1 := by
  simp only [seed, ends_bind, ends_current, ends_update, ends_log]
  apply (registerWidth_assesses width).mono (fun s₁ same => untouched_of_assesses same)
  rintro _ s₁ ⟨_, _, _, _, _, same⟩
  apply (ranked_ends F).imp
  rintro _ s₂ ⟨rfl, changed⟩
  rw [changed, same]
  refine ⟨rfl, rfl, fun _ _ => False.elim, fun i inside _ => ?_, fun _ _ _ => absurd trivial,
    .inl rfl⟩
  simp [inside]

theorem updateBest_untouched :
    Ends (updateBest : Search σ Float P Unit) s (fun s' => Untouched s.1 s'.1)
      fun _ s' => Untouched s.1 s'.1 := by
  have same : Untouched s.1 s.1 := untouched_of_same rfl rfl rfl rfl rfl
  simp only [updateBest, ends_bind, ends_current]
  cases s.1.tracker with
  | none => exact untouched_of_same rfl rfl rfl rfl rfl
  | some t =>
    simp only [ends_bind, ends_ite, ends_throw, ends_update]
    refine ⟨fun _ => same, fun _ => ?_⟩
    refine (ends_forM (fun s' => s'.1 = s.1) rfl fun _ _ s₁ same => ?_).imp fun _ s₁ same => ?_
    · rwa [ends_log]
    · rw [same]
      exact untouched_of_same rfl rfl rfl rfl rfl

theorem call_touched (full : evaluator.Full) (formed : s.1.Formed) (call : Call σ) :
    Ends (call.perform evaluator) s (fun s' => Untouched s.1 s'.1)
      fun _ s' => Touched (call.Writes s.1.popSize) (call.Covers s.1.popSize) s.1 s'.1 := by
  have same : Untouched s.1 s.1 := untouched_of_same rfl rfl rfl rfl rfl
  cases call with
  | populate initializer =>
    simp only [Call.perform, Initial.populate, ends_bind, ends_current, ends_ite, ends_throw]
    apply (Initial.redraws_sample initializer).mono
    · exact fun s₁ drawn => untouched_of_redrawn drawn
    · intro pool s₁ drawn
      have formed₁ := formed.redrawn drawn
      obtain ⟨_, drawn⟩ := drawn
      refine ⟨fun _ => untouched_of_redrawn ⟨_, drawn⟩, fun _ => ?_⟩
      apply (setPositions_touched formed₁ pool none).mono
      · intro s₂ still
        rw [drawn] at still
        exact still.after rfl rfl rfl rfl rfl
      · intro _ s₂ moved
        rw [drawn] at moved
        exact moved.after rfl rfl rfl rfl rfl
  | evaluate X =>
    simp only [Call.perform, evaluateArray, bind_assoc, ends_bind, ends_current, ends_ofExcept,
      ends_pure]
    refine ⟨fun rows _ => ?_, fun _ _ => same⟩
    exact (evaluate_assesses rows).mono (fun _ h => untouched_of_assesses h)
      fun _ _ h => untouched_of_assesses h
  | evaluateAll =>
    simp only [Call.perform, ends_bind, ends_pure]
    exact evaluateAll_touched evaluator full formed
  | seed X F =>
    simp only [Call.perform, Initial.adopt, ends_bind, ends_current, ends_ofExcept]
    exact ⟨fun p _ => seed_touched _ _ _, fun _ _ => same⟩
  | setPositions X indices => exact setPositions_touched formed X indices
  | replace indices X F => exact replace_touched formed indices X F
  | completeGeneration => exact untouched_of_same rfl rfl rfl rfl rfl
  | updateBest => exact updateBest_untouched

end Calls

/-- The marks of a run agree with the calls that succeeded so far. A stale row that one of them
wrote lies in the box, and there is fitness as soon as one row is not stale. -/
structure Dated (calls : List (Call σ)) (run : Run Float P) : Prop where
  formed : run.Formed
  stale_iff : ∀ i < run.popSize, run.stale[i]? = some true ↔ ¬Covered run.popSize calls i
  clipped : ∀ i < run.popSize, run.stale[i]? = some true →
    (∃ call ∈ calls, call.Writes run.popSize i) → run.Clipped i
  fitness : ∀ i < run.popSize, run.stale[i]? = some false → run.F.isSome = true

theorem Formed.marked (h : run.Formed) {i : ℕ} (inside : i < run.popSize) :
    run.stale[i]? = some true ∨ run.stale[i]? = some false := by
  have below : i < run.stale.size := by rwa [h.marks]
  rw [Array.getElem?_eq_getElem below]
  cases run.stale[i] <;> simp

theorem Formed.mem_stalePlaces_iff (h : run.Formed) {i : ℕ} (inside : i < run.popSize) :
    i ∈ run.stalePlaces ↔ run.stale[i]? = some true := by
  have below : i < run.stale.size := by rwa [h.marks]
  simp [mem_stalePlaces, inside, below]

/-- A call that moves some rows and covers others extends the calls that the marks agree with. -/
theorem Dated.touched {writes covers : ℕ → Prop} {calls' : List (Call σ)} (h : Dated calls run)
    (touched : Touched writes covers run run') (formed : run'.Formed)
    (covered : ∀ i, Covered run.popSize calls' i ↔
      covers i ∨ ¬writes i ∧ Covered run.popSize calls i)
    (written : ∀ i, (∃ call ∈ calls', call.Writes run.popSize i) →
      writes i ∨ ∃ call ∈ calls, call.Writes run.popSize i) : Dated calls' run' := by
  have size := touched.popSize
  refine ⟨formed, fun i inside => ?_, fun i inside stale wrote => ?_, fun i inside fresh => ?_⟩
  · rw [size] at inside ⊢
    rw [covered]
    by_cases moved : writes i
    · have marked := (touched.written i inside moved).1
      have apart : ¬covers i := by
        intro also
        rw [touched.covered i inside also] at marked
        cases marked
      simp [marked, moved, apart]
    · by_cases done : covers i
      · simp [touched.covered i inside done, done]
      · rw [(touched.kept i inside moved done).1, h.stale_iff i inside]
        simp [moved, done]
  · rw [size] at inside wrote
    by_cases moved : writes i
    · exact (touched.written i inside moved).2
    · have apart : ¬covers i := by
        intro also
        rw [touched.covered i inside also] at stale
        cases stale
      obtain ⟨mark, row⟩ := touched.kept i inside moved apart
      rw [mark] at stale
      have before := h.clipped i inside stale ((written i wrote).resolve_left moved)
      rcases row with same | clipped
      · rw [Clipped, touched.bounds, same]
        exact before
      · exact clipped
  · rw [size] at inside
    rcases touched.fitness with rated | ⟨none, earlier⟩
    · exact rated
    · have before := h.fitness i inside (earlier i inside fresh)
      rw [none] at before
      cases before

/-- The states that calls lead to, with the calls that succeeded on the way. A call that fails
leaves a state, too, and is no part of the history. The positions that a run starts with may be any.
What happens in between may change the session, the streams, and what is remembered beside the
population. -/
inductive Reached (evaluator : Evaluator σ Float P) :
    List (Call σ) → Run Float P × Session σ → Prop
  | start (bounds : Bounds Float) {popSize : ℕ} (inhabited : 0 < popSize) (nObj : Option Int)
      (frontLimit : Value) (seed : ℕ) (session : Session σ) {X : Rows Float}
      (shaped : X.Shaped popSize bounds.dim) :
      Reached evaluator [] ({ Run.start bounds popSize nObj frontLimit seed with X }, session)
  | called {calls : List (Call σ)} {s s' : Run Float P × Session σ}
      (reached : Reached evaluator calls s) (call : Call σ)
      (succeeded : (call.perform evaluator).run s = (.ok (), s')) :
      Reached evaluator (calls ++ [call]) s'
  | failed {calls : List (Call σ)} {s s' : Run Float P × Session σ}
      (reached : Reached evaluator calls s) (call : Call σ) {e : Error}
      (broke : (call.perform evaluator).run s = (.error e, s')) : Reached evaluator calls s'
  | aside {calls : List (Call σ)} {run : Run Float P} {session : Session σ}
      (reached : Reached evaluator calls (run, session)) (streams : Streams)
      (swarm : Swarm.Memory Float) (remarks : List (String × Note Float))
      (session' : Session σ) :
      Reached evaluator calls ({ run with streams, swarm, remarks }, session')

theorem reached_dated (full : evaluator.Full) (reached : Reached evaluator calls s) :
    Dated calls s.1 := by
  induction reached with
  | @start bounds popSize inhabited nObj frontLimit seed session X shaped =>
    obtain ⟨-, -, marks, measured, fitness⟩ :=
      formed_start (P := P) bounds inhabited nObj frontLimit seed
    have marked (i : ℕ) (inside : i < popSize) :
        (Array.replicate popSize true)[i]? = some true := by simp [inside]
    refine ⟨⟨inhabited, shaped, marks, measured, fitness⟩, fun i inside => ?_,
      fun _ _ _ => by simp, fun i inside fresh => ?_⟩
    · have never : ¬Covered popSize ([] : List (Call σ)) i := by
        rintro ⟨before, call, after, none, -⟩
        simp at none
      exact iff_of_true (marked i inside) never
    · have stale := (marked i inside).symm.trans fresh
      cases stale
  | @called calls s s' _ call succeeded dated =>
    have touched := call_touched evaluator full dated.formed call
    have formed := call_formed full dated.formed call
    unfold Ends at touched
    unfold KeepsForm Ends at formed
    rw [succeeded] at touched formed
    refine dated.touched touched formed (fun i => covered_snoc) fun i wrote => ?_
    obtain ⟨c, among, writes⟩ := wrote
    rcases List.mem_append.mp among with old | new
    · exact .inr ⟨c, old, writes⟩
    · obtain rfl := List.mem_singleton.mp new
      exact .inl writes
  | @failed calls s s' _ call e broke dated =>
    have touched := call_touched evaluator full dated.formed call
    have formed := call_formed full dated.formed call
    unfold Ends at touched
    unfold KeepsForm Ends at formed
    rw [broke] at touched formed
    exact dated.touched touched formed (fun i => by simp) fun i wrote => .inr wrote
  | aside _ streams swarm remarks session' dated =>
    obtain ⟨⟨inhabited, positions, marks, measured, fitness⟩, stale, clipped, rated⟩ := dated
    exact ⟨⟨inhabited, positions, marks, measured, fitness⟩, stale, clipped, rated⟩

/-- The population was evaluated where it is stale: the evaluator was asked once, for `rows`, and
answered `raw`. Rows that some call has written are handed over as they are. -/
structure Refreshed (evaluator : Evaluator σ Float P) (written : ℕ → Prop)
    (rows raw F : Rows Float) (s s' : Run Float P × Session σ) : Prop where
  asked : ∃ block width ses, (evaluator rows).run s.2 = (.ok block, ses) ∧
    blockRows rows.size block = .ok (width, raw) ∧ s'.2.user = ses.user
  size : rows.size = s.1.stalePlaces.length
  handed (k i : ℕ) : s.1.stalePlaces[k]? = some i →
    rows[k]? = some (s.1.bounds.clip (s.1.X.row i))
  asStored (k i : ℕ) : s.1.stalePlaces[k]? = some i → written i →
    rows[k]? = some (s.1.X.row i)
  stored : s'.1.F = some F
  rated (k i : ℕ) : s.1.stalePlaces[k]? = some i →
    F[i]? = some ((raw.row k).map Fitness.ranked)
  others (F' : Rows Float) : s.1.F = some F' → ∀ i : ℕ, i ∉ s.1.stalePlaces → F[i]? = F'[i]?

section Answer

variable {run : Run Float P} {k i : ℕ}

theorem stale_handed (place : run.stalePlaces[k]? = some i) :
    (run.bounds.clipRows (staleRows run))[k]? = some (run.bounds.clip (run.X.row i)) := by
  simp [Bounds.clipRows, staleRows, place]

/-- The answer for a stale row gets to the place that the row came from. -/
theorem stale_rated {known raw : Rows Float} (size : known.size = run.popSize)
    (count : raw.size = run.stalePlaces.length) (place : run.stalePlaces[k]? = some i) :
    (writeAt known run.stalePlaces (Fitness.rankedRows raw))[i]? =
      some ((raw.row k).map Fitness.ranked) := by
  have nodup : run.stalePlaces.Nodup := List.nodup_range.filter _
  have enough : run.stalePlaces.length ≤ (Fitness.rankedRows raw).size := by
    rw [Fitness.size_rankedRows, count]
  have inside : i < known.size := by
    rw [size]
    exact (mem_stalePlaces.mp (List.mem_of_getElem? place)).1
  have below : k < raw.size := by
    rw [count]
    exact (List.getElem?_eq_some_iff.mp place).1
  rw [getElem?_writeAt_nodup nodup enough place inside, ← Fitness.row_rankedRows below]
  simp [Rows.row, Fitness.rankedRows, below]

end Answer

theorem evaluateAll_refreshes (dated : Dated calls s.1) :
    Ensures (evaluateAll evaluator) s fun count s' =>
      count = s.1.stalePlaces.length ∧ s'.1.X = s.1.X ∧ s'.1.nEval = s.1.nEval + count ∧
        s'.1.stalePlaces = [] ∧ (s.1.stalePlaces = [] → s' = s) ∧
        (s.1.stalePlaces ≠ [] → ∃ rows raw F, Refreshed evaluator
          (fun i => ∃ call ∈ calls, call.Writes s.1.popSize i) rows raw F s s') := by
  simp only [evaluateAll, ensures_bind, ensures_ite, ensures_current, ensures_update, ensures_pure]
  constructor
  · intro none
    have none : s.1.stalePlaces = [] := by simpa using none
    exact ⟨by rw [none]; rfl, trivial, rfl, none, fun _ => trivial,
      fun present => absurd none present⟩
  intro present
  have present : s.1.stalePlaces ≠ [] := by simpa using present
  have filled : ¬(s.1.bounds.clipRows (staleRows s.1)).isEmpty = true := by
    simpa [Bounds.clipRows, staleRows] using present
  have count : (s.1.bounds.clipRows (staleRows s.1)).size = s.1.stalePlaces.length := by
    simp [Bounds.clipRows, staleRows]
  refine (((evaluate_assesses (staleRows s.1)).ensures).and
    (evaluate_ensures evaluator (staleRows s.1))).mono ?_
  rintro F s₁ ⟨⟨_, _, _, _, _, same⟩, outcome⟩
  rw [if_neg filled] at outcome
  obtain ⟨block, width, raw, ses, run, answered, shaped, -, registered, rfl, changed, user⟩ :=
    outcome
  have nEval : s₁.1.nEval = s.1.nEval + s.1.stalePlaces.length := by
    rw [changed, ← count]
    cases registered <;> rfl
  have known : (s₁.1.knownFitness (Fitness.rankedRows raw)).size = s.1.popSize := by
    rw [same]
    refine size_knownFitness (fun F' stored => ?_) _
    obtain ⟨w, -, shaped⟩ := dated.formed.fitness F' stored
    exact shaped.size
  refine ⟨trivial, by rw [same]; rfl, nEval, ?_, fun none => absurd none present, fun _ =>
    ⟨_, raw, _, ⟨block, width, ses, answered, shaped, user⟩, count, fun k i => stale_handed, ?_,
      rfl, fun k i => stale_rated known ((size_blockRows shaped).trans count), ?_⟩⟩
  · apply Run.stalePlaces_mark
    rw [same]
    exact fun i hi => hi
  · intro k i place written
    have among := List.mem_of_getElem? place
    have below := (mem_stalePlaces.mp among).1
    have stale := (dated.formed.mem_stalePlaces_iff below).mp among
    rw [stale_handed place]
    exact congrArg _ (dated.clipped i below stale written)
  · intro F' stored i absent
    refine (getElem?_writeAt_absent absent _ _).trans ?_
    rw [same]
    simp [stored]

/-- In every state of a run, a row is stale if and only if it has not been evaluated, replaced or
seeded since it was last moved, or since the start. Evaluating the population, if it succeeds, hands
the stale rows to the evaluator once and in order, takes their fitness from the answer, and leaves
no row stale, so that a second time there is nothing to evaluate. The other fitness and all
positions stay as they are. There is fitness as soon as one row is not stale. -/
theorem evaluates_stale (full : evaluator.Full) (reached : Reached evaluator calls s) :
    (∀ i < s.1.popSize, i ∈ s.1.stalePlaces ↔ ¬Covered s.1.popSize calls i) ∧
    s.1.stalePlaces.Pairwise (· < ·) ∧
    (∀ i < s.1.popSize, i ∉ s.1.stalePlaces → s.1.F.isSome = true) ∧
    ∀ count s', (evaluateAll evaluator).run s = (.ok count, s') →
      count = s.1.stalePlaces.length ∧ s'.1.X = s.1.X ∧ s'.1.nEval = s.1.nEval + count ∧
      s'.1.stalePlaces = [] ∧ (evaluateAll evaluator).run s' = (.ok 0, s') ∧
      (s.1.stalePlaces = [] → s' = s) ∧
      (s.1.stalePlaces ≠ [] → ∃ rows raw F, Refreshed evaluator
        (fun i => ∃ call ∈ calls, call.Writes s.1.popSize i) rows raw F s s') := by
  have dated := reached_dated full reached
  refine ⟨fun i inside => ?_, ?_, fun i inside fresh => ?_, fun count s' hrun => ?_⟩
  · rw [dated.formed.mem_stalePlaces_iff inside, dated.stale_iff i inside]
  · exact List.pairwise_lt_range.filter _
  · rw [dated.formed.mem_stalePlaces_iff inside] at fresh
    exact dated.fitness i inside ((dated.formed.marked inside).resolve_left fresh)
  · obtain ⟨counted, positions, nEval, clean, idle, refreshed⟩ :=
      evaluateAll_refreshes dated count s' hrun
    refine ⟨counted, positions, nEval, clean, ?_, idle, refreshed⟩
    rw [evaluateAll, run_bind, run_current]
    simp only [clean]
    rfl

theorem reached_succeeds (reached : Reached evaluator calls s) (call : Call σ)
    (success : ((call.perform evaluator).run s).1.toBool = true) :
    Reached evaluator (calls ++ [call]) ((call.perform evaluator).run s).2 := by
  apply reached.called
  cases outcome : (call.perform evaluator).run s with
  | mk r s' =>
    rw [outcome] at success
    cases r with
    | error e => cases success
    | ok _ => rfl

/-- The two points of `bothRated` after the second one was moved twice by a single call. -/
def movedTwice : Run Float Nat × Session Unit :=
  ((Call.perform fromBorders (.setPositions ⟨[2, 1], #[0.5, 2.0]⟩ (some [-1, 1]))).run
    bothRated).2

theorem movedTwice_reached :
    Reached fromBorders [.setPositions ⟨[2, 1], #[0.25, 0.75]⟩ none, .evaluateAll,
      .setPositions ⟨[2, 1], #[0.5, 2.0]⟩ (some [-1, 1])] movedTwice := by
  have shaped := (formed_start (P := Nat) .unitInterval (show 0 < 2 by decide) none .absent 0)
  have start : Reached fromBorders [] _ :=
    .start .unitInterval (show 0 < 2 by decide) none .absent 0 ⟨(), #[]⟩ shaped.positions
  have moved := reached_succeeds start (.setPositions ⟨[2, 1], #[0.25, 0.75]⟩ none)
    (by decide +kernel)
  have rated := reached_succeeds moved .evaluateAll (by decide +kernel)
  exact reached_succeeds rated (.setPositions ⟨[2, 1], #[0.5, 2.0]⟩ (some [-1, 1]))
    (by decide +kernel)

/-- Only the second row is evaluated again, and it is handed over as it is stored. -/
theorem evaluates_stale_movedTwice :
    movedTwice.1.stalePlaces = [1] ∧ ∃ s' rows raw F,
      (evaluateAll fromBorders).run movedTwice = (.ok 1, s') ∧
      Refreshed fromBorders (fun i => i < 2) rows raw F movedTwice s' ∧
      (evaluateAll fromBorders).run s' = (.ok 0, s') := by
  have places : movedTwice.1.stalePlaces = [1] := by decide +kernel
  have success : ((evaluateAll fromBorders).run movedTwice).1.toBool = true := by decide +kernel
  obtain ⟨-, -, -, evaluated⟩ := evaluates_stale fromBorders_full movedTwice_reached
  refine ⟨places, ?_⟩
  cases outcome : (evaluateAll fromBorders).run movedTwice with
  | mk r s' =>
    rw [outcome] at success
    cases r with
    | error e => cases success
    | ok count =>
      obtain ⟨counted, -, -, -, again, -, refreshed⟩ := evaluated count s' outcome
      obtain ⟨rows, raw, F, asked⟩ := refreshed (by rw [places]; decide)
      rw [places] at counted
      subst counted
      refine ⟨s', rows, raw, F, rfl, ?_, again⟩
      exact ⟨asked.asked, asked.size, asked.handed, fun k i place _ => asked.asStored k i place
        ⟨_, List.mem_cons_self, trivial⟩, asked.stored, asked.rated, asked.others⟩

end Run

end BoxSearch
