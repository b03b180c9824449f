import BoxSearch.Proofs.Scalar.Value
import BoxSearch.Proofs.Settings.Checked
import BoxSearch.Proofs.Solver.Fidelity
import BoxSearch.Proofs.Strategy.Progress

/-!
Runs that never fail on their own.

Settings that pass the checks, an objective that answers everywhere with the same number of
objectives, and a first population that has been evaluated: from there on any number of generations
can be completed, and there is a best point after each of them.
-/

namespace BoxSearch

open Search

variable {σ : Type} {d w : Nat}

section Totality

variable {p : Problem σ} {g : Row Float → Except Raised Value}

/-- The objective answers every vector of `d` entries with a fitness vector of width `w`, which is
the declared number of objectives if one is declared. -/
structure Problem.Total (p : Problem σ) (g : Row Float → Except Raised Value) (d w : Nat) : Prop where
  declared : ∀ n, p.nObj = some n → n = w
  rows : ∀ x : Row Float, x.size = d → ∃ f product, p.rated g x = .ok (f, product) ∧ f.size = w

theorem Problem.Total.fits (h : p.Total g d w) {X : Rows Float} (width : ∀ x ∈ X, x.size = d) :
    p.Fits g w X :=
  ⟨h.declared, fun x hx => h.rows x (width x (Array.mem_toList_iff.mp hx))⟩

/-- However a batch is cut into chunks, and in whatever order these complete, the answer is the block
of the whole batch. -/
theorem Backend.answer_of_inChunks {backend : Backend σ} {workers : Nat} {chunk : Option Int}
    (answers : p.Answers g) (total : p.Total g d w)
    (chunked : backend.InChunks (.problem p) workers chunk) {X : Rows Float} (session : Session σ)
    (nonempty : 0 < X.size) (width : ∀ x ∈ X, x.size = d) :
    ∃ log, (backend.evaluate (.problem p) X).run session =
      (.ok ⟨.ofRows w (X.map (p.fitnessAt g)),
        if p.returnsProduct then some (X.map (p.productAt g)) else none⟩, { session with log }) := by
  have fits := total.fits width
  obtain ⟨order, log, perm, run⟩ := chunked X session
  have whole : (if workers ≤ 1 ∨ X.size ≤ 1 then outcomeOf (.problem p) session X
      else gather X.size (order.map fun slice =>
        (slice.start, outcomeOf (.problem p) session (X.extract slice.start slice.stop)))) =
      p.blockOf g X := by
    simp only [outcomeOf_eq answers]
    split
    · rfl
    · exact gather_of_fits nonempty (Slice.chunks_tiles X.size workers chunk) perm fits
  rw [whole, Problem.blockOf_of_fits fits nonempty] at run
  exact ⟨log, run⟩

/-- An objective that answers everywhere answers every batch. -/
theorem Backend.total_of_inChunks {backend : Backend σ} {workers : Nat} {chunk : Option Int}
    (answers : p.Answers g) (total : p.Total g d w)
    (chunked : backend.InChunks (.problem p) workers chunk) :
    Evaluator.Total d w (backend.evaluate (.problem p)) := by
  intro X session nonempty width
  have even := Problem.even_fitnessAt (total.fits width)
  obtain ⟨log, run⟩ := answer_of_inChunks answers total chunked session nonempty width
  refine ⟨_, X.map (p.fitnessAt g), _, run, blockRows_ofRows Array.size_map even,
    ⟨Array.size_map, fun f hf => ?_⟩, ?_⟩
  · exact even f (Array.mem_toList_iff.mpr hf)
  · by_cases products : p.returnsProduct = true
    · simp [checkProducts, products]
    · simp [checkProducts, products]

/-- One after another is in chunks, too: all rows are one chunk. -/
theorem Backend.serial_inChunks (answers : p.Answers g) :
    (Backend.serial : Backend σ).InChunks (.problem p) 1 none := by
  intro X s
  refine ⟨_, s.log, .refl _, ?_⟩
  rw [if_pos (.inl (Nat.le_refl 1)), Backend.outcomeOf_eq answers]
  exact Problem.evaluate_run answers X s

end Totality

namespace Run

variable {P : Type} {evaluator : Evaluator σ Float P} {s s' : Run Float P × Session σ}

/-- What was answered has the width of the evaluator. -/
theorem Evaluated.width {X F : Rows Float} (h : Evaluated evaluator X F s s')
    (wide : evaluator.Wide d w) (nonempty : 0 < X.size) (width : ∀ x ∈ X, x.size = d) :
    ∃ run products, s.1.Registered w run ∧ F.Shaped X.size w ∧ ∃ nonFinite nEval,
      s'.1 = { run with nonFinite, nEval, pending := run.pending.push ⟨X, F, products⟩ } := by
  obtain ⟨block, width', raw, ses, run, answered, shaped, -, registered, rated, changed, -⟩ := h
  obtain ⟨rfl, rows⟩ := wide X s.2 block ses width' raw nonempty width answered shaped
  have shapedF : F.Shaped X.size width' := by
    rw [rated]
    exact rows.rankedRows
  exact ⟨run, block.products, registered, shapedF, _, _, changed⟩

/-- Evaluations do not change the shape of a run. -/
theorem evaluateAll_underway {n : Nat} (wide : evaluator.Wide d w) (h : s.1.Underway n d w) :
    Ensures (evaluateAll evaluator) s fun _ s' =>
      s'.1.Underway n d w ∧ s'.1.swarm = s.1.swarm := by
  refine (evaluateAll_ensures evaluator).mono fun _ s₂ outcome => ?_
  by_cases none : s.1.stalePlaces.isEmpty = true
  · rw [if_pos none] at outcome
    rw [outcome]
    exact ⟨h, rfl⟩
  · rw [if_neg none] at outcome
    obtain ⟨F, s₁, evaluated, rfl⟩ := outcome
    have clipped := Rows.shaped_clipRows s.1.bounds (staleRows s.1)
    have some : 0 < (staleRows s.1).size := by
      simpa [staleRows, List.length_pos_iff] using none
    have width : ∀ x ∈ s.1.bounds.clipRows (staleRows s.1), x.size = d := by
      rw [← h.dim]
      exact clipped.each
    obtain ⟨run, products, registered, shaped, nonFinite, nEval, changed⟩ :=
      evaluated.width wide (by rwa [clipped.size]) width
    have kept : run = s.1 := by
      cases registered with
      | known => rfl
      | first fresh untracked =>
        obtain ⟨t, tracked, -⟩ := h.lasting
        rw [untracked] at tracked
        cases tracked
    rw [kept] at changed
    have assessed : s₁.1.Underway n d w := by
      rw [changed]
      exact ⟨h.popSize, h.dim, h.objectives, h.lasting, h.positions, h.fitness, h.recollects⟩
    refine ⟨assessed.settle shaped.each, ?_⟩
    change s₁.1.swarm = _
    rw [changed]

/-- A run before any evaluation, with a population that is stale as a whole. -/
structure Sampled (n d : Nat) (run : Run Float P) : Prop where
  popSize : run.popSize = n
  dim : run.dim = d
  untracked : run.tracker = none
  idle : run.pending = #[]
  unknown : run.F = none
  positions : run.X.Shaped n d
  stale : run.stalePlaces = List.range n
  remarks : run.remarks = []
  swarm : run.swarm = .empty

/-- All points of a run wait for its tracker, which has just been made. -/
structure Assembled (n d w : Nat) (run : Run Float P) : Prop where
  popSize : run.popSize = n
  dim : run.dim = d
  objectives : run.nObj = some (w : Int)
  tracked : ∃ t limit, run.tracker = some t ∧ Tracker.start d w limit = .ok t
  waiting : ∃ b ∈ run.pending, 0 < b.X.size ∧ b.F.size = b.X.size
  positions : run.X.Shaped n d
  fitness : ∃ F, run.F = some F ∧ F.Shaped n w
  remarks : run.remarks = []
  swarm : run.swarm = .empty

variable {n : Nat}

/-- Once its points are folded the run is underway. -/
theorem Assembled.folded {run : Run Float P} (h : run.Assembled n d w) : Underway n d w
    { run with tracker := run.tracker.map (·.foldAll run.pending), pending := #[] } := by
  obtain ⟨t, limit, tracked, start⟩ := h.tracked
  refine ⟨h.popSize, h.dim, h.objectives, ⟨t.foldAll run.pending, ?_, ?_⟩, h.positions, h.fitness,
    h.remarks, .inl ?_⟩
  · simp [tracked]
  · exact Tracker.lasting_foldAll (Tracker.roomy_start start) (.inr h.waiting)
  · change run.swarm.velocity = none
    rw [h.swarm]
    rfl

/-- A population that was sampled is evaluated as a whole. -/
theorem assembled_of_sampled (wide : evaluator.Wide d w) (large : 0 < n)
    (h : s.1.Sampled n d) :
    Ensures (evaluateAll evaluator) s fun _ s' => s'.1.Assembled n d w := by
  refine (evaluateAll_ensures evaluator).mono fun _ s₂ outcome => ?_
  have some : ¬s.1.stalePlaces.isEmpty = true := by
    rw [h.stale, List.isEmpty_iff, List.range_eq_nil]
    omega
  rw [if_neg some] at outcome
  obtain ⟨F, s₁, evaluated, rfl⟩ := outcome
  have clipped := Rows.shaped_clipRows s.1.bounds (staleRows s.1)
  have count : (staleRows s.1).size = n := by simp [staleRows, h.stale]
  have dim : s.1.bounds.dim = d := h.dim
  rw [count, dim] at clipped
  obtain ⟨run, products, registered, shaped, nonFinite, nEval, changed⟩ :=
    evaluated.width wide (by rw [clipped.size]; exact large) clipped.each
  rw [clipped.size] at shaped
  cases registered with
  | known tracked =>
    rw [h.untracked] at tracked
    cases tracked
  | first fresh untracked agrees start =>
    rw [h.dim] at start
    refine ⟨?_, ?_, ?_, ⟨fresh, s.1.frontLimit, ?_, start⟩, ?_, ?_, ?_, ?_, ?_⟩ <;>
      simp only [settle, mark, changed]
    · exact h.popSize
    · exact h.dim
    · exact ⟨_, Array.mem_push_self, by rw [clipped.size]; exact large,
        shaped.size.trans clipped.size.symm⟩
    · exact h.positions
    · refine ⟨_, rfl, Rows.Shaped.writeAt ⟨?_, fun f hf => ?_⟩ shaped.each⟩
      · simp [h.unknown, h.popSize]
      · rw [h.unknown, Option.getD_none] at hf
        rw [(Array.mem_replicate.mp hf).2, Row.size_tabulate, shaped.row large]
    · exact h.remarks
    · exact h.swarm

/-- A population that is taken over is there with its fitness at once. -/
theorem seed_assembled (large : 0 < n) {bounds : Bounds Float} {nObj : Option Int} {limit : Value}
    {seed : Nat} (fresh : s.1 = .start bounds n nObj limit seed) {X F : Rows Float}
    (positions : X.Shaped n bounds.dim) (fitness : F.Shaped n w) :
    Ensures (Search.seed X F w) s fun _ s' => s'.1.stalePlaces = [] ∧
      s'.1.Assembled n bounds.dim w := by
  refine (seed_ensures X F w).mono ?_
  rintro _ s' ⟨run', registered, changed, -⟩
  rw [fresh] at registered
  cases registered with
  | known tracked => cases tracked
  | first tracker untracked agrees start =>
    rw [changed]
    refine ⟨stalePlaces_eq_nil fun i inside => ?_, rfl, rfl, rfl, ⟨tracker, limit, rfl, start⟩, ?_,
      positions, ⟨_, rfl, fitness.rankedRows⟩, rfl, rfl⟩
    · have below : i < n := inside
      simp [Run.start, below]
    · refine ⟨_, Array.mem_push_self, ?_, ?_⟩
      · exact positions.size.symm ▸ large
      · exact fitness.rankedRows.size.trans positions.size.symm

/-- A population that was sampled can be evaluated. -/
theorem evaluateAll_succeeds (total : evaluator.Total d w) (large : 0 < n)
    (h : s.1.Sampled n d) (declared : ∀ m, s.1.nObj = some m → m = (w : Int))
    (limit : w = 1 ∨ ∃ limit, Front.limitOf s.1.frontLimit = .ok limit) :
    Ends (evaluateAll evaluator) s (fun _ => False) fun _ _ => True := by
  have clipped := Rows.shaped_clipRows s.1.bounds (staleRows s.1)
  have count : (staleRows s.1).size = n := by simp [staleRows, h.stale]
  have dim : s.1.bounds.dim = d := h.dim
  rw [count, dim] at clipped
  have filled : 0 < (s.1.bounds.clipRows (staleRows s.1)).size := by rwa [clipped.size]
  obtain ⟨block, raw, session, answered, shaped, -, paired⟩ := total _ s.2 filled clipped.each
  have evaluated : Ends (evaluate evaluator (staleRows s.1)) s (fun _ => False) fun _ _ => True := by
    simp only [evaluate, ends_bind, ends_ite, ends_current, ends_pure, ends_ofExcept, ends_update]
    refine ⟨fun _ => trivial, fun _ => ?_⟩
    rw [ends_act, answered]
    dsimp only
    rw [shaped, paired]
    refine forall_of_ok (forall_of_ok ?_)
    apply (registerWidth_first (s := (s.1, session)) h.untracked declared limit).imp
    intro _ s₁ _
    exact (ranked_ends raw).imp fun _ _ _ => trivial
  simp only [evaluateAll, ends_bind, ends_ite, ends_current, ends_pure, ends_update]
  exact ⟨fun _ => trivial, fun _ => evaluated⟩

end Run

namespace Opening

open Run Draw

variable {P : Type} {o : Opening σ} {fresh : Nat} {run : Run Float P} {session : Session σ}
  {evaluator : Evaluator σ Float P}

/-- A run that has just been started has a positive number of individuals, and knows nothing. -/
theorem start_eq (h : o.start fresh = .ok run) :
    ∃ n seed, 1 < n ∧ run = .start o.bounds n o.nObj o.frontLimit seed := by
  rw [start] at h
  split at h
  · cases h
  · obtain ⟨seed, -, h⟩ := of_bind h
    obtain ⟨n, size, h⟩ := of_bind h
    cases h
    refine ⟨n, seed, ?_, rfl⟩
    rw [popSizeOf] at size
    obtain ⟨k, -, size⟩ := of_bind size
    split at size
    · cases size
    · cases size
      omega

theorem yields_uniformRow {bounds : Bounds Float}
    (finite : ∀ x ∈ bounds.span, Scalar.isFinite x = true)
    (unsigned : ∀ x ∈ bounds.span, ¬Scalar.one / x < Scalar.zero) :
    (Initial.uniformRow bounds).Yields fun x => x.size = bounds.dim := by
  have finite : ¬(bounds.span.any fun x => !Scalar.isFinite x) = true := by
    rw [Array.any_eq_true']
    simpa using finite
  have unsigned : ¬(bounds.span.any fun x => decide (Scalar.one / x < Scalar.zero)) = true := by
    rw [Array.any_eq_true']
    simpa using unsigned
  simp only [Initial.uniformRow]
  rw [if_neg finite, if_neg unsigned]
  exact yields_bind (succeeds_times succeeds_unit _) fun _ _ => yields_pure (by simp)

/-- Uniform rows can be drawn, and they form a population. -/
theorem populate_succeeds
    (finite : ∀ x ∈ s.1.bounds.span, Scalar.isFinite x = true)
    (unsigned : ∀ x ∈ s.1.bounds.span, ¬Scalar.one / x < Scalar.zero) :
    Ends (Initial.populate .uniform : Search σ Float P Unit) s (fun _ => False)
      fun _ _ => True := by
  simp only [Initial.populate, Initial.sample, setPositions, ends_bind, ends_current, ends_pure,
    ends_ite, ends_throw, ends_ofExcept, ends_update]
  apply (perIndividual_yields fun _ _ => yields_uniformRow finite unsigned).imp
  rintro rows s₁ ⟨count, width, ⟨streams, same⟩, -⟩
  have even : ∀ r ∈ rows.toList, r.size = s.1.dim :=
    fun r hr => width r (Array.mem_toList_iff.mp hr)
  have cut := Tensor.rowsExactly_ofRows even
  rw [count] at cut
  rw [same]
  refine ⟨fun differs => ?_, fun _ => ⟨fun _ _ => trivial, fun e failed => ?_⟩⟩
  · simp [Tensor.ofRows, count, Run.dim] at differs
  · cases cut.symm.trans failed

theorem populate_sampled (initializer : Initializer σ) {s : Run Float P × Session σ} {n : Nat}
    {bounds : Bounds Float} {nObj : Option Int} {limit : Value} {seed : Nat}
    (fresh : s.1 = .start bounds n nObj limit seed) :
    Ensures (Initial.populate initializer) s fun _ s' =>
      s'.1.Sampled n bounds.dim ∧ s'.1.nObj = nObj ∧ s'.1.frontLimit = limit := by
  simp only [Initial.populate, ensures_bind, ensures_current, ensures_ite, ensures_throw]
  refine (Initial.sample_redrawn initializer).mono ?_
  rintro pool s₁ ⟨streams, same⟩
  refine ⟨fun _ => trivial, fun _ => ?_⟩
  simp only [setPositions, ensures_bind, ensures_current, ensures_ofExcept, ensures_update]
  intro rows cut
  rw [same, fresh]
  refine ⟨⟨rfl, rfl, rfl, rfl, rfl, ?_, ?_, rfl, rfl⟩, rfl, rfl⟩
  · apply Rows.Shaped.writeAt
    · refine ⟨Array.size_replicate, fun x hx => ?_⟩
      rw [(Array.mem_replicate.mp hx).2, Row.size_tabulate]
    · exact (Rows.shaped_clipRows _ rows).each
  · have unset : (Run.start bounds n nObj limit seed : Run Float P).stale.size = n :=
      Array.size_replicate
    exact stalePlaces_moveAll unset rows

theorem adopt_assembled (X F : Value) {s : Run Float P × Session σ} {n : Nat} (large : 0 < n)
    {bounds : Bounds Float} {nObj : Option Int} {limit : Value} {seed : Nat}
    (fresh : s.1 = .start bounds n nObj limit seed) :
    Ensures (Initial.adopt X F) s fun _ s' => s'.1.stalePlaces = [] ∧
      ∃ width, s'.1.Assembled n bounds.dim width := by
  simp only [Initial.adopt, ensures_bind, ensures_current, ensures_ofExcept]
  intro p read
  rw [fresh] at read
  obtain ⟨X', F', -, -, passed⟩ := Population.checked_of_ofValues read
  obtain ⟨-, -, sizeX, sizeF⟩ := Population.of_check passed
  have even := Population.even_of_ofValues read
  have shapedX : p.X.Shaped n bounds.dim :=
    ⟨sizeX, fun x hx => even.X x (Array.mem_toList_iff.mpr hx)⟩
  have shapedF : p.F.Shaped n p.width :=
    ⟨sizeF, fun f hf => even.F f (Array.mem_toList_iff.mpr hf)⟩
  refine (seed_assembled large fresh shapedX shapedF).mono ?_
  rintro _ s' ⟨settled, assembled⟩
  exact ⟨settled, p.width, assembled⟩

/-- Makes a first population, has it evaluated, and folds it into the tracker. -/
def begin (o : Opening σ) (evaluator : Evaluator σ Float P) : Search σ Float P Unit := do
  o.populate
  let _ ← evaluateAll evaluator
  updateBest

/-- A run whose first population has been evaluated and folded is underway. Fitness that was taken
over must have the width of the objective. -/
theorem underway_of_opened {s₀ : Run Float P × Session σ}
    (total : evaluator.Total run.dim w) (started : o.start fresh = .ok run)
    (opened : (o.begin evaluator).run (run, session) = (.ok (), s₀))
    (warm : o.population.isSome = true → s₀.1.nObj = some (w : Int)) :
    s₀.1.Underway run.popSize run.dim w := by
  obtain ⟨n, seed, large, rfl⟩ := start_eq started
  have large : 0 < n := by omega
  obtain ⟨_, s₁, populated, opened⟩ := of_run_bind opened
  obtain ⟨_, s₂, evaluated, folded⟩ := of_run_bind opened
  have changed := (updateBest_ensures _ _ folded).1
  have assembled : s₂.1.Assembled n o.bounds.dim w := by
    rw [populate] at populated
    cases population : o.population with
    | none =>
      rw [population] at populated
      obtain ⟨sampled, -, -⟩ := populate_sampled _ (s := (_, session)) rfl _ _ populated
      exact assembled_of_sampled total.wide large sampled _ _ evaluated
    | some pair =>
      rw [population] at populated
      simp only [Initial.adoptPair] at populated
      split at populated
      case h_1 X F _ =>
        obtain ⟨fresh, width, assembled⟩ :=
          adopt_assembled X F (s := (_, session)) large rfl _ _ populated
        have same := evaluateAll_idle fresh _ _ evaluated
        rw [same] at changed ⊢
        have objectives := warm (by rw [population]; rfl)
        rw [changed] at objectives
        change s₁.1.nObj = some (w : Int) at objectives
        rw [assembled.objectives] at objectives
        have width : width = w := Int.ofNat.inj (Option.some.inj objectives)
        rwa [width] at assembled
      case h_2 => cases populated
  rw [changed]
  exact assembled.folded

/-- Nothing stands in the way of a first population: the intervals have finite lengths without a
sign, the number of objectives is the declared one, and a front may have the limit. -/
structure Sound (o : Opening σ) (w : Nat) : Prop where
  finite : ∀ x ∈ o.bounds.span, Scalar.isFinite x = true
  unsigned : ∀ x ∈ o.bounds.span, ¬Scalar.one / x < Scalar.zero
  declared : ∀ n, o.nObj = some n → n = (w : Int)
  limit : w = 1 ∨ ∃ limit, Front.limitOf o.frontLimit = .ok limit

/-- A sound run gets its first population. -/
theorem begin_succeeds (sound : o.Sound w) (cold : o.population = none)
    (uniform : o.initializer.getD .uniform = .uniform) (total : evaluator.Total o.bounds.dim w)
    (width : 1 ≤ w) {s : Run Float P × Session σ} {n seed : Nat} (large : 0 < n)
    (start : s.1 = .start o.bounds n o.nObj o.frontLimit seed) :
    Ends (o.begin evaluator) s (fun _ => False) fun _ _ => True := by
  have bounds : s.1.bounds = o.bounds := by rw [start]; rfl
  simp only [begin, populate, cold, uniform, ends_bind]
  apply ((populate_succeeds (bounds ▸ sound.finite) (bounds ▸ sound.unsigned)).and_ensures
    (populate_sampled .uniform start)).imp
  rintro _ s₁ ⟨-, sampled, objectives, limit⟩
  have declared : ∀ m, s₁.1.nObj = some m → m = (w : Int) := by
    rw [objectives]
    exact sound.declared
  apply ((evaluateAll_succeeds total large sampled declared (limit ▸ sound.limit)).and_ensures
    (assembled_of_sampled total.wide large sampled)).imp
  rintro _ s₂ ⟨-, assembled⟩
  have objective : s₂.1.nObj ≠ some 0 := by
    rw [assembled.objectives]
    intro none
    have zero : (w : Int) = 0 := Option.some.inj none
    omega
  obtain ⟨s₃, folded⟩ := updateBest_succeeds (σ := σ) objective
  rw [Ends, folded]
  trivial

end Opening

namespace Strategy

/-- A number of generations, one after another. -/
def rounds {P : Type} (settings : Settings) (evaluator : Evaluator σ Float P) :
    Nat → Search σ Float P Unit
  | 0 => pure ()
  | k + 1 => do
    rounds settings evaluator k
    generation settings evaluator

/-- The run and the view of it have a best point. -/
def ShowsBest {P : Type} (run : Run Float P) : Prop :=
  run.hasBest = true ∧ (∃ x, run.bestX = .ok x) ∧ (∃ f, run.bestF = .ok f) ∧
    run.view.bestX.isSome = true ∧ run.view.bestF.isSome = true

theorem showsBest {P : Type} {n : Nat} {run : Run Float P} (h : run.Underway n d w) :
    ShowsBest run := by
  obtain ⟨⟨x, bestX⟩, f, bestF⟩ := Run.exists_best h.hasBest
  exact ⟨h.hasBest, ⟨x, bestX⟩, ⟨f, bestF⟩, by simp [Run.view, bestX, Except.toOption],
    by simp [Run.view, bestF, Except.toOption]⟩

theorem rounds_proceed {P : Type} {n : Nat} {evaluator : Evaluator σ Float P}
    {settings : Settings} (total : evaluator.Total d w) (width : 1 ≤ w) (large : 2 ≤ n)
    (short : d ≤ 2 ^ 63)
    (donors : ∀ de, settings = .differential de → de.mutant.donors + 1 ≤ n)
    {s : Run Float P × Session σ} (h : s.1.Underway n d w) (k : Nat) :
    Ends (rounds settings evaluator k) s (fun _ => False) fun _ s' =>
      s'.1.Underway n d w ∧ s'.1.generation = s.1.generation + k := by
  induction k with
  | zero => exact ⟨h, rfl⟩
  | succ k ih =>
    rw [rounds, ends_bind]
    apply ih.imp
    rintro _ s₁ ⟨h₁, count⟩
    apply ((generation_proceeds total width h₁ large short donors).and_ensures
      (generation_counts settings)).imp
    rintro _ s₂ ⟨h₂, counted, _⟩
    exact ⟨h₂, by omega⟩

/-- A strategy never fails on its own. Settings that pass the checks of their family, a run with a
population of that size whose first population has been evaluated and folded, and an objective that
answers every point of the space with the same number of objectives, however batches are cut into
chunks, in a space with no more dimensions than indices can be drawn for: then any number of
generations succeeds, be the strategy prepared beforehand or not. After each of them all arrays have
kept their shapes, and the best point is there to be looked at. The decay of the fireflies' random
steps is above zero and at most one, so no power of it grows beyond all numbers. -/
theorem never_fails {settings : Settings} {o : Opening σ} {fresh : Nat} {run : Run Float Value}
    {p : Problem σ} {g : Row Float → Except Raised Value} {backend : Backend σ} {workers : Nat}
    {chunk : Option Int} {session : Session σ} {s₀ : Run Float Value × Session σ}
    (checked : settings.Checked) (started : o.start fresh = .ok run)
    (size : run.popSize = settings.popSize) (short : run.dim ≤ 2 ^ 63) (answers : p.Answers g)
    (total : p.Total g run.dim w) (width : 1 ≤ w)
    (chunked : backend.InChunks (.problem p) workers chunk)
    (opened : (o.begin (backend.evaluate (.problem p))).run (run, session) = (.ok (), s₀))
    (warm : o.population.isSome = true → s₀.1.nObj = some (w : Int)) :
    (∀ k, ∃ s, (rounds settings (backend.evaluate (.problem p)) k).run s₀ = (.ok (), s) ∧
      s.1.generation = s₀.1.generation + k ∧ s.1.Underway settings.popSize run.dim w ∧
      ShowsBest s.1) ∧
    (∀ k, ∃ s, (do
      prepare settings
      rounds settings (backend.evaluate (.problem p)) k).run s₀ = (.ok (), s) ∧
      s.1.Underway settings.popSize run.dim w ∧ ShowsBest s.1) ∧
    ∀ firefly, settings = .firefly firefly → ∀ k : Nat,
      0 < Binary.value firefly.alphaDecay ^ k ∧ Binary.value firefly.alphaDecay ^ k ≤ 1 := by
  have answered := Backend.total_of_inChunks answers total chunked
  have ready := Opening.underway_of_opened answered started opened warm
  rw [size] at ready
  have large := checked.two_le_popSize
  have donors : ∀ de, settings = .differential de → de.mutant.donors + 1 ≤ settings.popSize := by
    rintro de rfl
    exact checked.donors_lt_popSize
  refine ⟨fun k => ?_, fun k => ?_, ?_⟩
  · obtain ⟨_, s, ran, underway, count⟩ :=
      exists_of_ends (rounds_proceed answered width large short donors ready k)
    exact ⟨s, ran, count, underway, showsBest underway⟩
  · have whole : Proceeds settings.popSize run.dim w (do
        prepare settings
        rounds settings (backend.evaluate (.problem p)) k) s₀ := by
      rw [Proceeds, ends_bind]
      apply (prepare_proceeds ready settings).imp
      intro _ s₁ h₁
      apply (rounds_proceed answered width large short donors h₁ k).imp
      rintro _ s₂ ⟨h₂, _⟩
      exact h₂
    obtain ⟨_, s, ran, underway⟩ := exists_of_ends whole
    exact ⟨s, ran, underway, showsBest underway⟩
  · rintro firefly rfl k
    obtain ⟨positive, small⟩ := checked.alphaDecay_mem
    exact Binary.power_value_mem positive small k

end Strategy

/-- The distances to both ends of the unit interval, squared. -/
def bothEndsOf (x : Row Float) : Except Raised Value :=
  .ok (.list [.float (x.gene 0 * x.gene 0), .float ((1.0 - x.gene 0) * (1.0 - x.gene 0))])

def bothEnds : Problem Unit where
  bounds := .unitInterval
  objective x := ExceptT.mk fun s => (bothEndsOf x, s)
  nObj := some 2
  name := "both ends"
  returnsProduct := false

/-- Four points of the unit interval, and room for one of them on the front. -/
def narrowOpening : Opening Unit where
  bounds := .unitInterval
  nObj := some 2
  popSize := .int 4
  seed := .int 0
  frontLimit := .int 1
  initializer := some (.custom (ExceptT.mk fun s =>
    (.ok (.list [.list [.float 0.0], .list [.float 0.25], .list [.float 0.75], .list [.float 1.0]]),
      s)))
  population := none

namespace Strategy

theorem bothEnds_answers : bothEnds.Answers bothEndsOf :=
  fun _ _ => rfl

theorem bothEnds_total : bothEnds.Total bothEndsOf 1 2 :=
  ⟨fun _ h => (Option.some.inj h).symm, fun _ _ => ⟨_, _, rfl, rfl⟩⟩

/-- As many donors as there are other individuals, and a front of one point, are enough for a
thousand generations of differential evolution. -/
theorem never_fails_narrow :
    let evaluator := (Backend.serial : Backend Unit).evaluate (.problem bothEnds)
    ∃ run s₀ s : Run Float Value × Session Unit,
      narrowOpening.start 0 = .ok run.1 ∧
      (narrowOpening.begin evaluator).run run = (.ok (), s₀) ∧
      (rounds (.differential { popSize := 4 }) evaluator 1000).run s₀ = (.ok (), s) ∧
      s.1.generation = s₀.1.generation + 1000 ∧ ShowsBest s.1 := by
  intro evaluator
  let start : Run Float Value := .start .unitInterval 4 (some 2) (.int 1) 0
  have started : narrowOpening.start 0 = .ok start := rfl
  have checked : (Settings.differential { popSize := 4 }).Checked := ⟨[("pop_size", .int 4)], rfl⟩
  have opens : ((narrowOpening.begin evaluator).run (start, ⟨(), #[]⟩)).1.toBool = true := by
    decide +kernel
  have opened := Plan.run_eq_ok opens
  obtain ⟨rounds, -, -⟩ := never_fails checked started rfl (by decide) bothEnds_answers
    bothEnds_total (by decide) (Backend.serial_inChunks bothEnds_answers) opened nofun
  obtain ⟨s, ran, count, -, best⟩ := rounds 1000
  exact ⟨_, _, s, started, opened, ran, count, best⟩

end Strategy

end BoxSearch
