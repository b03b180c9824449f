import BoxSearch.Proofs.Settings.Checked
import BoxSearch.Proofs.Solver.Fidelity
import BoxSearch.Proofs.Strategy.Improvement

/-!
Runs in which the best point is never lost.

All strategies but the swarm keep the best fitness in the population. The books tell of every row
that a run evaluates or takes over, so the tracker knows the least fitness of them all. A row of the
population gives way to a better one only, so the least fitness of the population is the same.
-/

namespace BoxSearch

open Search Scalar OrderedScalar

variable {σ P : Type}

/-- No value of a list is smaller, and some value is equal. The two zeros are equal. -/
def Scalar.Least {α : Type} [Scalar α] (a : α) (values : List α) : Prop :=
  (∃ v ∈ values, (a == v) = true) ∧ ∀ v ∈ values, a ≤ v

theorem Incumbent.FirstBest.least {m : Member Float P} {ms : List (Member Float P)}
    (h : FirstBest m ms) (number : ∀ n ∈ ms, isNaN (n.f.gene 0) = false) :
    m ∈ ms ∧ ∀ n ∈ ms, m.f.gene 0 ≤ n.f.gene 0 := by
  obtain ⟨before, after, rfl, above, below⟩ := h
  refine ⟨by simp, fun n hn => ?_⟩
  rcases List.mem_append.mp hn with first | second
  · exact le_of_lt (above n first)
  rcases List.mem_cons.mp second with rfl | later
  · exact isNaN_eq_false_iff.mp (number n hn)
  · exact below n later

/-- All rows of a population are rows of a ledger, and every row of the ledger is matched by one of
the population. -/
structure Rows.Covers (F : Rows Float) (ledger : List (Row Float)) : Prop where
  origin : ∀ i < F.size, F.row i ∈ ledger
  matched : ∀ f ∈ ledger, ∃ i < F.size, (F.row i).gene 0 ≤ f.gene 0

namespace Rows

variable {F F' : Rows Float} {ledger offered : List (Row Float)}

theorem covers_toList (single : Single F) : Covers F F.toList := by
  refine ⟨fun i inside => row_mem inside, fun f hf => ?_⟩
  obtain ⟨i, inside, rfl⟩ := exists_row hf
  exact ⟨i, inside, (single.row inside).le_self⟩

/-- Rows that are offered to a population are entered into the ledger. -/
theorem Covers.improves (h : Covers F ledger) (improves : Improves F offered F') :
    Covers F' (ledger ++ offered) := by
  refine ⟨fun i inside => ?_, fun f hf => ?_⟩
  · rw [improves.size] at inside
    rw [List.mem_append]
    rcases improves.origin i inside with same | new
    · rw [same]
      exact .inl (h.origin i inside)
    · exact .inr new
  · rw [improves.size]
    rcases List.mem_append.mp hf with before | new
    · obtain ⟨i, inside, le⟩ := h.matched f before
      exact ⟨i, inside, le_trans (improves.descends i inside) le⟩
    · exact improves.matched f new

/-- What is best in the ledger is best in the population. -/
theorem Covers.least {f : Row Float} (h : Covers F ledger) (among : f ∈ ledger)
    (best : ∀ g ∈ ledger, f.gene 0 ≤ g.gene 0) : Least (f.gene 0) (F.column 0).toList := by
  have column {i : Nat} (inside : i < F.size) : (F.row i).gene 0 ∈ (F.column 0).toList := by
    rw [Rows.column, Array.toList_map]
    exact List.mem_map_of_mem (row_mem inside)
  constructor
  · obtain ⟨i, inside, le⟩ := h.matched f among
    exact ⟨_, column inside, beq_iff.mpr ⟨best _ (h.origin i inside), le⟩⟩
  · intro v hv
    rw [Rows.column, Array.toList_map] at hv
    obtain ⟨g, hg, rfl⟩ := List.mem_map.mp hv
    obtain ⟨i, inside, rfl⟩ := exists_row hg
    exact best _ (h.origin i inside)

end Rows

/-- An objective that answers with a number wherever it answers, or with a list of one. -/
def Problem.IsScalar (p : Problem σ) (g : Row Float → Except Raised Value) : Prop :=
  ∀ x raw product, p.rated g x = .ok (raw, product) → raw.size = 1

/-- The evaluations of such an objective have a single objective. -/
theorem Backend.isScalar_of_answers {backend : Backend σ} {p : Problem σ}
    {g : Row Float → Except Raised Value} (answers : p.Answers g) (scalar : p.IsScalar g)
    (serially : backend.ReturnsSerial (.problem p)) :
    Evaluator.IsScalar (backend.evaluate (.problem p)) := by
  intro rows ses block ses' width raw filled evaluated shaped
  have honest := honest_of_returnsSerial answers serially False
  obtain ⟨size, rated⟩ := honest rows ses block ses' width raw filled evaluated shaped
  have sizes (k : Nat) (inside : k < rows.size) : (raw.row k).size = 1 := by
    obtain ⟨-, raw', product, answered, same, -⟩ := rated k inside
    have equal := congrArg Array.size same
    rw [Array.size_map, Array.size_map] at equal
    rw [equal, scalar _ _ _ answered]
  have nonempty : 0 < rows.size := by
    rw [Array.isEmpty_eq_false_iff] at filled
    exact Array.size_pos_iff.mpr filled
  refine ⟨?_, fun f hf => ?_⟩
  · rw [← (rated 0 nonempty).1, sizes 0 nonempty]
  · obtain ⟨k, inside, rfl⟩ := Rows.exists_row hf
    exact sizes k (by rwa [← size])

namespace Plan

/-- Whatever is evaluated or taken over has a single objective. -/
structure IsScalar (plan : Plan σ) : Prop where
  evaluator : plan.evaluator.IsScalar
  population : ∀ q, plan.population = some q → q.width = 1

/-- The number of rows that are taken over. -/
def seeded (plan : Plan σ) : Nat :=
  match plan.population with
  | some q => q.X.size
  | none => 0

/-- The runs that a plan goes through, with all that was evaluated or taken over on the way, in
order. It is found where it waits to be folded, right before the fold. -/
inductive Chronicled (plan : Plan σ) : Nat → Run Float Value → List (Member Float Value) → Prop
  | ready {count : Nat} {s t : Session σ} {s₁ s₂ s₃ s₄ : Run Float Value × Session σ}
      (populated : plan.populate.run (plan.start, s) = (.ok (), s₁))
      (evaluated : (evaluateAll plan.evaluator).run s₁ = (.ok count, s₂))
      (folded : updateBest.run s₂ = (.ok (), s₃))
      (prepared : (Strategy.prepare plan.settings).run (s₃.1, t) = (.ok (), s₄)) :
      Chronicled plan 0 s₄.1 s₂.1.waiting
  | next {n count : Nat} {run : Run Float Value} {ledger : List (Member Float Value)}
      {s : Session σ} {s₁ s₂ s₃ : Run Float Value × Session σ}
      (before : Chronicled plan n run ledger)
      (stepped : (Strategy.step plan.settings plan.evaluator).run (run, s) = (.ok (), s₁))
      (evaluated : (evaluateAll plan.evaluator).run s₁ = (.ok count, s₂))
      (folded : updateBest.run s₂ = (.ok (), s₃)) :
      Chronicled plan (n + 1) s₃.1.completeGeneration (ledger ++ s₂.1.waiting)

variable {plan : Plan σ} {n : Nat} {run : Run Float Value} {ledger : List (Member Float Value)}

theorem Reached.chronicled (h : plan.Reached n run) : ∃ ledger, plan.Chronicled n run ledger := by
  induction h with
  | ready begun prepared =>
    rw [begin] at begun
    obtain ⟨_, s₁, populated, begun⟩ := of_run_bind begun
    obtain ⟨_, s₂, evaluated, folded⟩ := of_run_bind begun
    exact ⟨_, .ready populated evaluated folded prepared⟩
  | next _ completed ih =>
    obtain ⟨ledger, before⟩ := ih
    obtain ⟨_, s₁, s₂, s₃, stepped, evaluated, folded, same⟩ := Strategy.generation_parts completed
    cases same
    exact ⟨_, .next before stepped evaluated folded⟩

/-- The books of a run go with a ledger. -/
structure Booked (plan : Plan σ) (ledger : List (Member Float Value)) (run : Run Float Value) :
    Prop where
  scalar : run.IsScalar
  tracked : Run.Tracked ledger run
  count : ledger.length = run.nEval + plan.seeded

/-- Between two generations the books are complete, and the population covers the ledger. -/
structure Upheld (plan : Plan σ) (ledger : List (Member Float Value)) (run : Run Float Value)
    (F : Rows Float) : Prop where
  booked : plan.Booked ledger run
  idle : run.pending = #[]
  popSize : run.popSize = plan.settings.popSize
  scored : run.Scored F
  covers : F.Covers (ledger.map (·.f))

theorem Booked.moves {s s' : Run Float Value × Session σ} {answers : List (Member Float Value)}
    (scalar : plan.evaluator.IsScalar) (h : plan.Booked ledger s.1)
    (moves : Run.Moves plan.evaluator s answers s') : plan.Booked (ledger ++ answers) s'.1 := by
  have accounts := moves.accounts
  refine ⟨moves.isScalar scalar h.scalar, accounts.tracked _ h.tracked, ?_⟩
  rw [List.length_append, h.count, accounts.nEval]
  omega

section Opening

theorem isScalar_start : plan.start.IsScalar := by
  intro tracked
  cases tracked

/-- A population that is sampled is stale as a whole. -/
theorem populate_cold (scalar : plan.evaluator.IsScalar) (cold : plan.population = none)
    (s : Session σ) :
    Ensures plan.populate (plan.start, s) fun _ s' => plan.Booked [] s'.1 ∧ s'.1.pending = #[] ∧
      s'.1.popSize = plan.settings.popSize ∧ s'.1.F = none ∧
      s'.1.stalePlaces = List.range plan.settings.popSize := by
  have start : plan.Booked [] plan.start := by
    refine ⟨isScalar_start, Run.tracked_start, ?_⟩
    rw [seeded, cold]
    rfl
  simp only [populate, cold, Initial.populate, ensures_bind, ensures_current, ensures_ite,
    ensures_throw, setPositions, ensures_ofExcept, ensures_update]
  refine (Initial.sample_redrawn _).mono fun pool s₁ sampled => ⟨fun _ => trivial, ?_⟩
  obtain ⟨streams, redrawn⟩ := sampled
  intro _ rows _
  rw [redrawn]
  let moved : Run Float Value := Run.moveAll { plan.start with streams } rows
  have moves : Run.Moves plan.evaluator (plan.start, s) [] (moved, s₁.2) :=
    .quiet moved.X moved.F moved.stale streams rfl
  refine ⟨start.moves scalar moves, rfl, rfl, rfl, ?_⟩
  have size : plan.start.stale.size = plan.start.popSize := Array.size_replicate
  exact @Run.stalePlaces_moveAll _ _ _ { plan.start with streams } size rows

/-- A population that is sampled is evaluated as a whole. -/
theorem opening_cold (scalar : plan.evaluator.IsScalar) (cold : plan.population = none)
    (large : 0 < plan.settings.popSize) (s : Session σ) :
    Ensures (do plan.populate; evaluateAll plan.evaluator) (plan.start, s) fun _ s' =>
      plan.Booked s'.1.waiting s'.1 ∧ s'.1.popSize = plan.settings.popSize ∧
        ∃ F, s'.1.Scored F ∧ F.Covers (s'.1.waiting.map (·.f)) := by
  rw [ensures_bind]
  refine (populate_cold scalar cold s).mono fun _ s₁ populated => ?_
  obtain ⟨booked, idle, popSize, unknown, stale⟩ := populated
  have renewed : Ensures (evaluateAll plan.evaluator) s₁ _ :=
    Run.scored_of_stale scalar (by rw [stale, popSize]) (by rwa [popSize]) (by simp [unknown])
  refine renewed.mono fun _ s₂ outcome => ?_
  obtain ⟨FC, answers, s₁', assessed, settled, scored⟩ := outcome
  have same := Run.sameFitness_of_assesses assessed.same
  have waiting : s₂.1.waiting = answers := by
    have before : s₁.1.waiting = [] := by simp [Run.waiting, idle]
    have after : s₂.1.waiting = s₁'.1.waiting := by
      rw [settled]
      rfl
    rw [after, assessed.waiting, before, List.nil_append]
  have popSize₂ : s₂.1.popSize = plan.settings.popSize := by
    rw [settled]
    exact same.popSize.trans popSize
  have settles : Run.Moves plan.evaluator s₁' [] s₂ :=
    Run.moves_of_repositions ⟨_, _, _, settled⟩
  have booked₂ := booked.moves scalar (assessed.moves.trans settles)
  rw [waiting]
  refine ⟨by simpa using booked₂, popSize₂, FC, scored, ?_⟩
  rw [assessed.answers]
  exact Rows.covers_toList scored.single

/-- A population that is taken over is evaluated already. -/
theorem opening_warm {q : Population.Evaluated Float} (warm : plan.population = some q)
    (even : q.Even plan.target.bounds.dim) (width : q.width = 1) (s : Session σ) :
    Ensures (do plan.populate; evaluateAll plan.evaluator) (plan.start, s) fun _ s' =>
      plan.Booked s'.1.waiting s'.1 ∧ s'.1.popSize = plan.settings.popSize ∧
        ∃ F, s'.1.Scored F ∧ F.Covers (s'.1.waiting.map (·.f)) := by
  simp only [populate, warm, ensures_bind, ensures_current, ensures_ofExcept]
  intro q' passed
  obtain ⟨rfl, sizeX, sizeF⟩ := Population.check_ofRows even passed
  have seeds := (seed_ensures q'.X q'.F q'.width).and
    (Run.seed_accounts (s := (plan.start, s)) (sizeF.trans sizeX.symm))
  refine seeds.mono fun _ s₁ seeded => ?_
  obtain ⟨⟨run, registered, taken, -⟩, accounts⟩ := seeded
  have popSize : run.popSize = plan.settings.popSize := by cases registered <;> rfl
  have idle : run.pending = #[] := by cases registered <;> rfl
  have sizes : (Fitness.rankedRows q'.F).size = q'.X.size := by
    rw [Fitness.size_rankedRows, sizeF, sizeX]
  have single : (Fitness.rankedRows q'.F).Single := by
    apply Fitness.single_rankedRows
    intro f hf
    rw [even.F f hf, width]
  have scored : s₁.1.Scored (Fitness.rankedRows q'.F) := by
    rw [taken]
    refine ⟨rfl, ?_, single, Run.stalePlaces_eq_nil fun i inside => ?_⟩
    · rw [sizes, sizeX]
      exact popSize.symm
    · have below : i < run.popSize := inside
      simp [below]
  have waiting : s₁.1.waiting = Batch.members ⟨q'.X, Fitness.rankedRows q'.F, none⟩ := by
    rw [taken]
    simp [Run.waiting, idle]
  have scalar : s₁.1.IsScalar := by
    rw [width] at registered
    rw [taken]
    have scalarRun := Run.isScalar_registered isScalar_start registered
    exact scalarRun
  have booked : plan.Booked s₁.1.waiting s₁.1 := by
    rw [waiting]
    refine ⟨scalar, accounts.tracked [] Run.tracked_start, ?_⟩
    have members : (Batch.members ⟨q'.X, Fitness.rankedRows q'.F,
        (none : Option (Array (Option Value)))⟩).length = plan.seeded := by
      simp [Batch.members, seeded, warm]
    have none : s₁.1.nEval = 0 := accounts.nEval
    rw [members, none, Nat.zero_add]
  refine (evaluateAll_idle scored.fresh).mono fun _ s₂ same => ?_
  rw [same]
  refine ⟨booked, ?_, _, scored, ?_⟩
  · rw [taken]
    exact popSize
  · rw [waiting, map_f_members sizes]
    exact Rows.covers_toList single

end Opening

theorem Upheld.folded {s s' : Run Float Value × Session σ} {F : Rows Float}
    (scalar : plan.evaluator.IsScalar) (booked : plan.Booked ledger s.1)
    (popSize : s.1.popSize = plan.settings.popSize) (scored : s.1.Scored F)
    (covers : F.Covers (ledger.map (·.f))) (folded : updateBest.run s = (.ok (), s')) :
    plan.Upheld ledger s'.1 F := by
  have changed := (updateBest_ensures _ _ folded).1
  have moves : Run.Moves plan.evaluator s [] s' := .folded changed
  have booked' := booked.moves scalar moves
  rw [List.append_nil] at booked'
  have same : Run.SameFitness s.1 s'.1 := by
    rw [changed]
    exact ⟨rfl, rfl, rfl⟩
  refine ⟨booked', ?_, same.popSize.trans popSize, same.scored scored, covers⟩
  rw [changed]

/-- A plan that is accepted for one of the four strategies, with a single objective. -/
structure Elitist (plan : Plan σ) : Prop where
  accepted : plan.Accepted
  checked : plan.settings.Checked
  other : ∀ swarm, plan.settings ≠ .swarm swarm
  scalar : plan.IsScalar

/-- However a run with a single objective is opened, its population is evaluated as a whole. -/
theorem upheld_opening (accepted : plan.Accepted) (checked : plan.settings.Checked)
    (scalar : plan.IsScalar) {count : Nat} {s : Session σ} {s₁ s₂ s₃ : Run Float Value × Session σ}
    (populated : plan.populate.run (plan.start, s) = (.ok (), s₁))
    (evaluated : (evaluateAll plan.evaluator).run s₁ = (.ok count, s₂))
    (folded : updateBest.run s₂ = (.ok (), s₃)) : ∃ F, plan.Upheld s₂.1.waiting s₃.1 F := by
  have opened : (do plan.populate; evaluateAll plan.evaluator).run (plan.start, s) =
      (.ok count, s₂) := by
    rw [run_bind, populated]
    exact evaluated
  have settled : plan.Booked s₂.1.waiting s₂.1 ∧ s₂.1.popSize = plan.settings.popSize ∧
      ∃ F, s₂.1.Scored F ∧ F.Covers (s₂.1.waiting.map (·.f)) := by
    cases population : plan.population with
    | none =>
      have large := checked.two_le_popSize
      exact opening_cold scalar.evaluator population (by omega) s _ _ opened
    | some q =>
      have even := even_of_accepted accepted population
      exact opening_warm population even (scalar.population q population) s _ _ opened
  obtain ⟨booked, popSize, F, scored, covers⟩ := settled
  exact ⟨F, .folded scalar.evaluator booked popSize scored covers folded⟩

/-- One generation: the population improves, and the ledger grows by what it improves by. -/
theorem Upheld.generation (elitist : plan.Elitist) {F : Rows Float} (h : plan.Upheld ledger run F)
    {count : Nat} {s : Session σ} {s₁ s₂ s₃ : Run Float Value × Session σ}
    (stepped : (Strategy.step plan.settings plan.evaluator).run (run, s) = (.ok (), s₁))
    (evaluated : (evaluateAll plan.evaluator).run s₁ = (.ok count, s₂))
    (folded : updateBest.run s₂ = (.ok (), s₃)) :
    ∃ F', plan.Upheld (ledger ++ s₂.1.waiting) s₃.1.completeGeneration F' ∧
      ∀ i < F.size, (F'.row i).gene 0 ≤ (F.row i).gene 0 := by
  have scalar := elitist.scalar.evaluator
  obtain ⟨answers, advances⟩ := Strategy.step_advances (s := (run, s)) elitist.other scalar h.scored
    _ _ stepped
  obtain ⟨F', scored, improves⟩ := advances.scored scalar h.scored
  have same : s₂ = s₁ := evaluateAll_idle scored.fresh _ _ evaluated
  subst same
  have waiting : s₂.1.waiting = answers := by
    rw [advances.waiting]
    simp [Run.waiting, h.idle]
  have booked := h.booked.moves (s := (run, s)) scalar advances.moves
  have popSize := advances.improves.popSize.trans h.popSize
  have covers := h.covers.improves improves
  rw [← List.map_append] at covers
  have upheld := Upheld.folded scalar booked popSize scored covers folded
  rw [waiting]
  refine ⟨F', ⟨⟨upheld.booked.scalar, ?_, upheld.booked.count⟩, upheld.idle, upheld.popSize,
    ⟨upheld.scored.known, upheld.scored.size, upheld.scored.single, upheld.scored.fresh⟩,
    upheld.covers⟩, improves.descends⟩
  exact Run.tracked_of_sameAccount upheld.booked.tracked ⟨rfl, rfl, rfl, rfl, rfl, rfl⟩

theorem Chronicled.upheld (elitist : plan.Elitist) (h : plan.Chronicled n run ledger) :
    ∃ F, plan.Upheld ledger run F := by
  induction h with
  | @ready count s t s₁ s₂ s₃ s₄ populated evaluated folded prepared =>
    have nothing : Strategy.prepare plan.settings = (pure () : Search σ Float Value Unit) := by
      have other := elitist.other
      cases settings : plan.settings with
      | swarm swarm => exact absurd settings (other swarm)
      | genetic | differential | firefly | teaching => rfl
    rw [nothing] at prepared
    cases prepared
    have opened := upheld_opening elitist.accepted elitist.checked elitist.scalar populated
      evaluated folded
    exact opened
  | next before stepped evaluated folded ih =>
    obtain ⟨F, upheld⟩ := ih
    obtain ⟨F', upheld', -⟩ := upheld.generation elitist stepped evaluated folded
    exact ⟨F', upheld'⟩

/-- The tracker has the least fitness of the ledger, and so has the population. -/
theorem Upheld.best (elitist : plan.Elitist) {F : Rows Float} (h : plan.Upheld ledger run F) :
    ∃ best, run.bestF = .ok (.number best) ∧ Least best (F.column 0).toList ∧
      Least best (ledger.map (·.f.gene 0)) := by
  have large := elitist.checked.two_le_popSize
  have nonempty : ledger ≠ [] := by
    rintro rfl
    have first := h.covers.origin 0 (by rw [h.scored.size, h.popSize]; omega)
    cases first
  cases h.booked.tracked with
  | none _ nothing => exact absurd nothing nonempty
  | some tracker fresh width tracked objectives number start folded =>
    have single : width = 1 := by
      have only := h.booked.scalar (by rw [tracked]; rfl)
      rw [only] at objectives
      have equal := Option.some.inj objectives
      omega
    subst single
    rw [h.idle] at folded
    have incumbent : tracker = .single (ledger.foldl Incumbent.take .empty) := by
      cases start
      rw [← Tracker.foldl_take_single]
      exact folded
    obtain ⟨best, held, first⟩ := Incumbent.foldl_take_empty nonempty number
    rw [incumbent, held] at tracked
    obtain ⟨among, least⟩ := first.least number
    refine ⟨best.f.gene 0, (Run.best_of_holding tracked).2.1, ?_, ?_, ?_⟩
    · apply h.covers.least (List.mem_map_of_mem among)
      intro g hg
      obtain ⟨m, hm, rfl⟩ := List.mem_map.mp hg
      exact least m hm
    · exact ⟨_, List.mem_map_of_mem among, beq_iff.mpr ⟨least best among, least best among⟩⟩
    · intro v hv
      obtain ⟨m, hm, rfl⟩ := List.mem_map.mp hv
      exact least m hm

end Plan

theorem squares_isScalar : squares.IsScalar squareOf := by
  intro x raw product rated
  cases rated
  rfl

namespace Plan

end Plan

end BoxSearch
