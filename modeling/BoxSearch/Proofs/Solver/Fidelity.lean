import BoxSearch.Proofs.Solver.Backends
import BoxSearch.Proofs.Solver.Reached
import BoxSearch.Proofs.Strategy.Fidelity

/-!
Whole runs in which fitness goes with positions.

For an objective that is a function of the point, every state that a run reaches between two
generations is faithful to that function: the population, a swarm's memory, the incumbent and the
front hold, for each of their points, the fitness that the objective gives at that very point.
-/

namespace BoxSearch

open Search

variable {σ : Type}

/-- The fitness of a point is what the objective answers there, with every entry ranked. If the
rating is `strict` then the payload is the objective's, too. -/
def Problem.Scores (p : Problem σ) (g : Row Float → Except Raised Value) (strict : Prop) :
    Rating Float Value :=
  fun x f product => ∃ raw product', p.rated g x = .ok (raw, product') ∧
    f = raw.map Fitness.ranked ∧ (strict → product = product')

/-- The fitness that a population comes with is that of the objective at its positions. -/
def Problem.Confirms (p : Problem σ) (g : Row Float → Except Raised Value)
    (q : Population.Evaluated Float) : Prop :=
  ∀ i < q.X.size, ∃ raw product, p.rated g (q.X.row i) = .ok (raw, product) ∧
    (q.F.row i).map Fitness.ranked = raw.map Fitness.ranked

namespace Backend

variable {p : Problem σ} {g : Row Float → Except Raised Value}

/-- A backend that gives the blocks of evaluation in one piece answers every row with what the
objective answers there. -/
theorem honest_of_returnsSerial {backend : Backend σ} (answers : p.Answers g)
    (serially : backend.ReturnsSerial (.problem p)) (strict : Prop) :
    Evaluator.Honest (p.Scores g strict) (backend.evaluate (.problem p)) := by
  intro rows ses block ses' width raw filled evaluated shaped
  have nonempty : 0 < rows.size := by
    rcases Nat.eq_zero_or_pos rows.size with none | some
    · simp [Array.isEmpty, none] at filled
    · exact some
  have made : p.blockOf g rows = .ok block := by
    have whole := serially rows ses block (congrArg Prod.fst evaluated)
    rw [← whole]
    exact (outcomeOf_eq answers ses rows).symm
  obtain ⟨w, fits⟩ := Problem.fits_of_blockOf nonempty made
  rw [Problem.blockOf_of_fits fits nonempty] at made
  cases made
  have cut : blockRows rows.size (⟨.ofRows w (rows.map (p.fitnessAt g)),
      if p.returnsProduct then some (rows.map (p.productAt g)) else none⟩ : Block Float Value) =
      .ok (w, rows.map (p.fitnessAt g)) := by
    simp only [blockRows, Tensor.rows?_ofRows (Problem.even_fitnessAt fits)]
    simp [Tensor.ofRows]
  rw [cut] at shaped
  cases shaped
  refine ⟨Array.size_map .., fun k hk => ?_⟩
  have here : rows.row k ∈ rows.toList := by simp [Rows.row, hk]
  have fitness : Rows.row (rows.map (p.fitnessAt g)) k = p.fitnessAt g (rows.row k) := by
    simp [Rows.row, hk]
  rw [fitness]
  refine ⟨Problem.size_fitnessAt fits _ here, _, _, Problem.rated_eq fits _ here, rfl, fun _ => ?_⟩
  by_cases flagged : p.returnsProduct = true
  · simp [Batch.product, flagged, Rows.row, hk]
  · have plain : p.returnsProduct = false := by simpa using flagged
    rw [Problem.productAt_plain plain, if_neg flagged]
    rfl

end Backend

namespace Plan

variable {plan : Plan σ} {R : Rating Float Value}

theorem backed_start : plan.start.Backed R :=
  ⟨nofun, by simp [start, Run.start], by simp [start, Run.start], nofun, fun _ => rfl⟩

theorem recalls_start : R.Recalls plan.start.popSize plan.start.swarm :=
  nofun

/-- The population to start from is faithful, be it sampled or taken over. -/
theorem populate_faithful (s : Session σ)
    (warm : ∀ q, plan.population = some q → q.Even plan.target.bounds.dim ∧
      ∀ i < q.X.size, R (q.X.row i) ((q.F.row i).map Fitness.ranked) none) :
    Ensures plan.populate (plan.start, s) fun _ s' => s'.1.Faithful R := by
  cases population : plan.population with
  | none =>
    simp only [populate, population]
    refine Initial.populate_faithful _ ?_ ?_ nofun backed_start recalls_start
    · exact Array.size_replicate
    · exact Array.size_replicate
  | some q =>
    obtain ⟨even, scored⟩ := warm q population
    simp only [populate, population, ensures_bind, ensures_current, ensures_ofExcept]
    intro q' passed
    obtain ⟨rfl, sizeX, sizeF⟩ := Population.check_ofRows even passed
    refine seed_faithful backed_start recalls_start sizeX sizeF fun i hi => ?_
    have inX : i < q'.X.size := Nat.lt_of_lt_of_eq hi sizeX.symm
    have inF : i < q'.F.size := Nat.lt_of_lt_of_eq hi sizeF.symm
    refine ⟨even.F _ ?_, scored i inX⟩
    simp [Rows.row, inF]

theorem begin_faithful (honest : plan.evaluator.Honest R) (s : Session σ)
    (warm : ∀ q, plan.population = some q → q.Even plan.target.bounds.dim ∧
      ∀ i < q.X.size, R (q.X.row i) ((q.F.row i).map Fitness.ranked) none) :
    Ensures plan.begin (plan.start, s) fun _ s' => s'.1.Faithful R ∧ s'.1.stalePlaces = [] := by
  simp only [begin, ensures_bind]
  refine (populate_faithful s warm).mono fun _ s₁ faithful₁ => ?_
  refine (evaluateAll_faithful honest faithful₁).mono fun _ s₂ h₂ => ?_
  obtain ⟨faithful₂, fresh₂, _⟩ := h₂
  refine (updateBest_faithful faithful₂).mono fun _ s₃ h₃ => ?_
  exact ⟨h₃.1, h₃.2.stalePlaces.trans fresh₂⟩

/-- Every run that a plan goes through is faithful, and none of its rows is stale. -/
theorem reached_faithful (honest : plan.evaluator.Honest R)
    (warm : ∀ q, plan.population = some q → q.Even plan.target.bounds.dim ∧
      ∀ i < q.X.size, R (q.X.row i) ((q.F.row i).map Fitness.ranked) none)
    {n : Nat} {run : Run Float Value} (reached : plan.Reached n run) :
    run.Faithful R ∧ run.stalePlaces = [] ∧
      ∀ swarm, plan.settings = .swarm swarm → Swarm.Remembers run := by
  induction reached with
  | @ready _ _ s _ t _ begun prepared =>
    obtain ⟨faithful, fresh⟩ := begin_faithful honest s warm _ _ begun
    exact Strategy.prepare_faithful (s := (_, t)) faithful fresh plan.settings _ _ prepared
  | @next _ _ _ s _ _ completed ih =>
    obtain ⟨faithful, fresh, _⟩ := ih
    exact Strategy.generation_faithful (s := (_, s)) honest faithful fresh plan.settings
      _ _ completed

/-- In a run of the plan no row is stale, and wherever a point is kept with fitness, that fitness
is what the objective answers at that very point, with every entry ranked. If the rating is
`strict` then the payload is the objective's, too. -/
structure Consistent (plan : Plan σ) (p : Problem σ) (g : Row Float → Except Raised Value)
    (strict : Prop) (run : Run Float Value) : Prop where
  fresh : run.stalePlaces = []
  population : run.X.size = run.popSize ∧ ∀ i < run.popSize, ∃ F, run.F = some F ∧
    F.size = run.popSize ∧ (p.Scores g strict).Pairs (run.X.row i) (F.row i)
  memory : ∀ swarm, plan.settings = .swarm swarm → ∃ bestX bestF,
    run.remembered .bestX = .ok bestX ∧ run.remembered .bestF = .ok bestF ∧
    bestX.size = run.popSize ∧ bestF.size = run.popSize ∧
    ∀ i < run.popSize, (p.Scores g strict).Pairs (bestX.row i) (bestF.row i)
  incumbent : ∀ x f product, run.incumbent? = some (x, f, product) →
    p.Scores g strict x #[f] product
  front : ∀ front, run.front? = some front → ∀ m ∈ front.members,
    p.Scores g strict m.x m.f m.product

theorem remembered_eq_ok {run : Run Float Value} {part : Swarm.Part} {rows : Rows Float}
    (h : run.swarm.get part = some rows) : run.remembered part = .ok rows := by
  rw [Run.remembered, h]

theorem consistent_of_faithful {p : Problem σ} {g : Row Float → Except Raised Value} {strict : Prop}
    {run : Run Float Value} (faithful : run.Faithful (p.Scores g strict))
    (fresh : run.stalePlaces = [])
    (remembers : ∀ swarm, plan.settings = .swarm swarm → Swarm.Remembers run) :
    plan.Consistent p g strict run := by
  refine ⟨fresh, ⟨faithful.paired.sizeX, fun i hi => ?_⟩, ?_, ?_, ?_⟩
  · rcases Run.stale_or_fresh faithful.paired hi with ⟨stale, _⟩ | ⟨_, settled⟩
    · rw [fresh] at stale
      cases stale
    · obtain ⟨F, stored, pair⟩ := faithful.paired.rated i hi settled
      exact ⟨F, stored, faithful.paired.sizeF F stored, pair⟩
  · intro swarm settings
    obtain ⟨bestX, bestF, hX, hF⟩ := remembers swarm settings
    obtain ⟨sizeX, sizeF, pairs⟩ := faithful.recalls bestX bestF hX hF
    exact ⟨bestX, bestF, remembered_eq_ok hX, remembered_eq_ok hF, sizeX, sizeF, pairs⟩
  · intro x f product found
    rw [Run.incumbent?] at found
    split at found
    case h_1 best tracked =>
      refine faithful.backed.held _ tracked ⟨x, #[f], product⟩ ?_
      obtain ⟨x', point, same⟩ := Option.map_eq_some_iff.mp found
      cases same
      simp [Tracker.held, point]
    case h_2 => cases found
  · intro front tracked m hm
    obtain ⟨t, ht, found⟩ := Option.bind_eq_some_iff.mp tracked
    refine faithful.backed.held t ht m ?_
    cases t with
    | single best => cases found
    | several front' =>
      cases found
      exact Array.mem_toList_iff.mpr hm

/-- Whatever the strategy, in every generation of a run with an accepted configuration, stored
fitness is that of the objective at the stored position. This holds for the population, of which
no row is stale, for what a swarm remembers, for the incumbent and for the front. After a cold
start the payloads are those of the objective, too. What a solver reports comes from such runs. -/
theorem stored_fitness_matches {plan : Plan σ} {p : Problem σ} {g : Row Float → Except Raised Value}
    (accepted : plan.Accepted) (target : plan.target = .problem p) (answers : p.Answers g)
    (serially : plan.backend.ReturnsSerial (.problem p))
    (warm : ∀ q, plan.population = some q → p.Confirms g q) :
    (∀ n run, plan.Reached n run → plan.Consistent p g (plan.population = none) run) ∧
    ∀ st result st', st.1.history = #[] → plan.solve.run st = (.ok result, st') →
      ∃ n run history, plan.Reached n run ∧ plan.Recorded history n ∧
        plan.resultOf run history.toList = .ok result := by
  refine ⟨fun n run reached => ?_, fun st result st' none h => of_run_solve none h⟩
  have honest : plan.evaluator.Honest (p.Scores g (plan.population = none)) := by
    rw [evaluator, target]
    exact Backend.honest_of_returnsSerial answers serially _
  have scored : ∀ q, plan.population = some q → q.Even plan.target.bounds.dim ∧
      ∀ i < q.X.size, p.Scores g (plan.population = none) (q.X.row i)
        ((q.F.row i).map Fitness.ranked) none := by
    intro q population
    refine ⟨even_of_accepted accepted population, fun i hi => ?_⟩
    obtain ⟨raw, product, rated, same⟩ := warm q population i hi
    refine ⟨raw, product, rated, same, fun cold => ?_⟩
    rw [population] at cold
    cases cold
  obtain ⟨faithful, fresh, remembers⟩ := reached_faithful honest scored reached
  exact consistent_of_faithful faithful fresh remembers

end Plan

/-- Two points to start from, whatever the stream of random numbers is. -/
def twoPoints : Initializer Unit :=
  .custom (ExceptT.mk fun s => (.ok (.list [.list [.float 0.5], .list [.float 0.25]]), s))

/-- A swarm of two on squares. -/
def swarmRequest : Request Unit where
  strategy := .strategy (.swarm { popSize := 2 })
  overrides := []
  target := .target (.problem squares)
  stopping := .ready ⟨.never, some 1⟩
  seed := .settled 0
  backend := .ready .serial
  workers := .absent
  callback := .none
  record := .none
  observers := []
  initializer := .function twoPoints
  frontLimit := .absent
  population := .absent
  clock := ExceptT.mk fun s => (.ok 0.0, s)

/-- What becomes of the request. -/
def swarmPlan : Plan Unit where
  settings := .swarm { popSize := 2 }
  target := .problem squares
  policy := ⟨.never, some 1⟩
  seed := 0
  backend := .serial
  backendName := "SerialEvalBackend"
  owns := false
  callback := none
  record := none
  observers := []
  initializer := some twoPoints
  frontLimit := none
  population := none
  clock := ExceptT.mk fun s => (.ok 0.0, s)

/-- The same from a population whose fitness is known. -/
def warmRequest : Request Unit :=
  { swarmRequest with
    initializer := .none
    population := .tuple [.list [.list [.float 0.5], .list [.float 0.25]],
      .list [.float 0.25, .float 0.0625]] }

/-- The population of that request as it is read. -/
def warmStart : Population.Evaluated Float := ⟨#[#[0.5], #[0.25]], #[#[0.25], #[0.0625]], 1⟩

/-- What becomes of that request. -/
def warmPlan : Plan Unit :=
  { swarmPlan with initializer := none, population := some warmStart }

namespace Plan

theorem swarmPlan_accepted : swarmPlan.Accepted :=
  ⟨swarmRequest, 0, ⟨(), #[]⟩, _, rfl⟩

theorem warmStart_checked :
    Population.check ⟨[2, 1], #[0.5, 0.25]⟩ ⟨[2], #[0.25, 0.0625]⟩ 2 squares.bounds none =
      .ok warmStart := by
  have passes : (Population.check ⟨[2, 1], #[0.5, 0.25]⟩ ⟨[2], #[0.25, 0.0625]⟩ 2 squares.bounds
    none).toBool = true := by decide +kernel
  cases made : Population.check ⟨[2, 1], #[0.5, 0.25]⟩ ⟨[2], #[0.25, 0.0625]⟩ 2
      squares.bounds none with
  | error e =>
    rw [made] at passes
    cases passes
  | ok q =>
    obtain ⟨positions, fitness, -, -⟩ := Population.of_check (n := 2) made
    obtain ⟨X, F, width⟩ := q
    have cutX : Tensor.cut 2 1 #[0.5, 0.25] = (#[#[0.5], #[0.25]] : Rows Float) := by decide +kernel
    have cutF : Tensor.cut 2 1 #[0.25, 0.0625] = (#[#[0.25], #[0.0625]] : Rows Float) := by
      decide +kernel
    cases positions
    cases fitness
    rw [warmStart, ← cutX, ← cutF]
    rfl

theorem warmPlan_accepted : warmPlan.Accepted := by
  refine ⟨warmRequest, 0, ⟨(), #[]⟩, ⟨(), #[]⟩, ?_⟩
  have read : populationOf warmRequest.population false warmPlan.settings warmPlan.target
      warmPlan.policy = .ok (some warmStart) := by
    change (Population.check ⟨[2, 1], #[0.5, 0.25]⟩ ⟨[2], #[0.25, 0.0625]⟩ 2
      squares.bounds none >>= _) = _
    rw [warmStart_checked]
    rfl
  have whole : (ofRequest warmRequest 0).run ⟨(), #[]⟩ =
      (ofRequest.ofExcept (populationOf warmRequest.population false warmPlan.settings
        warmPlan.target warmPlan.policy) >>= fun population =>
          pure { warmPlan with population }).run ⟨(), #[]⟩ := rfl
  rw [whole, read]
  rfl

theorem warmStart_confirmed : squares.Confirms squareOf warmStart := by
  intro i hi
  refine ⟨_, _, rfl, ?_⟩
  match i with
  | 0 => decide +kernel
  | 1 => decide +kernel

theorem exists_run_eq_ok {S β : Type} {m : ExceptT Error (StateM S) β} {s : S}
    (h : (m.run s).1.toBool = true) : ∃ b, m.run s = (.ok b, (m.run s).2) := by
  cases outcome : m.run s with
  | mk r s' =>
    rw [outcome] at h
    cases r with
    | error e => cases h
    | ok b => exact ⟨b, rfl⟩

theorem run_eq_ok {S : Type} {m : ExceptT Error (StateM S) Unit} {s : S}
    (h : (m.run s).1.toBool = true) : m.run s = (.ok (), (m.run s).2) := by
  obtain ⟨_, ran⟩ := exists_run_eq_ok h
  exact ran

/-- Swarms that are ready for their first generation, one after a cold and one after a warm start.
The better one of the two particles is the incumbent. -/
theorem stored_fitness_matches_swarm :
    (∃ run, swarmPlan.Reached 0 run ∧
      (run.incumbent?.map fun best => (best.1, best.2.1)) = some (#[0.25], 0.0625) ∧
      swarmPlan.Consistent squares squareOf (swarmPlan.population = none) run) ∧
    ∃ run, warmPlan.Reached 0 run ∧
      (run.incumbent?.map fun best => (best.1, best.2.1)) = some (#[0.25], 0.0625) ∧
      warmPlan.Consistent squares squareOf (warmPlan.population = none) run := by
  let begun (plan : Plan Unit) := plan.begin.run (plan.start, ⟨(), #[]⟩)
  let prepared (plan : Plan Unit) :=
    (Strategy.prepare plan.settings : Search Unit Float Value Unit).run (begun plan).2
  have reached (plan : Plan Unit) (first : (begun plan).1.toBool = true)
      (second : (prepared plan).1.toBool = true) : plan.Reached 0 (prepared plan).2.1 :=
    .ready (run_eq_ok first) (run_eq_ok second)
  have serially := Backend.serial_returnsSerial (.problem squares)
  constructor
  · have ready := reached swarmPlan (by decide +kernel) (by decide +kernel)
    obtain ⟨consistent, _⟩ := stored_fitness_matches swarmPlan_accepted rfl squares_answers serially
      (fun _ warm => by cases warm)
    exact ⟨_, ready, by decide +kernel, consistent 0 _ ready⟩
  · have ready := reached warmPlan (by decide +kernel) (by decide +kernel)
    have confirmed : ∀ q, warmPlan.population = some q → squares.Confirms squareOf q := by
      intro q warm
      cases warm
      exact warmStart_confirmed
    obtain ⟨consistent, _⟩ :=
      stored_fitness_matches warmPlan_accepted rfl squares_answers serially confirmed
    exact ⟨_, ready, by decide +kernel, consistent 0 _ ready⟩

end Plan

end BoxSearch
