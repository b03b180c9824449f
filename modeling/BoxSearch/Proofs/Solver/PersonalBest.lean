import BoxSearch.Proofs.Solver.Opening
import BoxSearch.Proofs.Solver.Selection
import BoxSearch.Proofs.Strategy.PersonalBest

/-!
What the particles remember in whole runs.

Between two generations every particle remembers the best of the places that it had been to before
the last flight. At the beginning there are none, and it remembers the place where it is. So once the
next step has looked at the fitness of the population, the best places are those of the whole history.
-/

namespace BoxSearch

open Search

variable {σ P : Type}

/-- Fitness of a single objective has width one. -/
theorem Evaluator.IsScalar.wide {evaluator : Evaluator σ Float P} (scalar : evaluator.IsScalar)
    (d : Nat) : evaluator.Wide d 1 := by
  intro rows session block session' width raw nonempty _ answered shaped
  have filled : rows.isEmpty = false := by
    rw [Array.isEmpty_eq_false_iff, ← Array.size_pos_iff]
    exact nonempty
  obtain ⟨one, sizes⟩ := scalar rows session block session' width raw filled answered shaped
  exact ⟨one, Run.size_blockRows shaped, fun f hf => sizes f (Array.mem_toList_iff.mpr hf)⟩

namespace Plan

/-- The runs that a plan goes through, each with all those before it: one for every generation that
was completed, the first one being that of the first population. -/
inductive Succession (plan : Plan σ) : List (Run Float Value) → Run Float Value → Prop
  | ready {run run' : Run Float Value} {s s' t t' : Session σ}
      (begun : plan.begin.run (plan.start, s) = (.ok (), (run, s')))
      (prepared : (Strategy.prepare plan.settings).run (run, t) = (.ok (), (run', t'))) :
      Succession plan [] run'
  | next {earlier : List (Run Float Value)} {run run' : Run Float Value} {s s' : Session σ}
      (before : Succession plan earlier run)
      (completed : (Strategy.generation plan.settings plan.evaluator).run (run, s) =
        (.ok (), (run', s'))) :
      Succession plan (earlier ++ [run]) run'

variable {plan : Plan σ} {n : Nat} {earlier : List (Run Float Value)} {run run' : Run Float Value}
  {settings : Swarm.Settings} {F bestX bestF : Rows Float}

theorem Reached.succession (h : plan.Reached n run) :
    ∃ earlier, earlier.length = n ∧ plan.Succession earlier run := by
  induction h with
  | ready begun prepared => exact ⟨[], rfl, .ready begun prepared⟩
  | next _ completed ih =>
    obtain ⟨earlier, length, before⟩ := ih
    exact ⟨_, by simp [length], .next before completed⟩

theorem Succession.reached (h : plan.Succession earlier run) :
    plan.Reached earlier.length run := by
  induction h with
  | ready begun prepared => exact .ready begun prepared
  | next _ completed ih =>
    rw [List.length_append]
    exact .next ih completed

/-- A plan that is accepted for a particle swarm, with a single objective. -/
structure Swarming (plan : Plan σ) (settings : Swarm.Settings) : Prop where
  accepted : plan.Accepted
  swarm : plan.settings = .swarm settings
  checked : plan.settings.Checked
  scalar : plan.IsScalar

theorem Swarming.large (swarming : plan.Swarming settings) : 0 < plan.settings.popSize := by
  have two := swarming.checked.two_le_popSize
  omega

theorem Swarming.checked_swarm (swarming : plan.Swarming settings) :
    (Settings.swarm settings).Checked :=
  swarming.swarm ▸ swarming.checked

/-- The first population gives a run its shape, be it sampled or taken over. -/
theorem Swarming.opening_underway (swarming : plan.Swarming settings) {count : Nat} {s : Session σ}
    {s₁ s₂ s₃ : Run Float Value × Session σ}
    (populated : plan.populate.run (plan.start, s) = (.ok (), s₁))
    (evaluated : (evaluateAll plan.evaluator).run s₁ = (.ok count, s₂))
    (folded : updateBest.run s₂ = (.ok (), s₃)) :
    s₃.1.Underway plan.settings.popSize plan.target.bounds.dim 1 := by
  have opened : (plan.populate >>= fun _ => evaluateAll plan.evaluator).run (plan.start, s) =
      (.ok count, s₂) := by
    rw [run_bind, populated]
    exact evaluated
  have warm (q : Population.Evaluated Float) (population : plan.population = some q) :
      q.Even plan.target.bounds.dim ∧ q.width = 1 :=
    ⟨even_of_accepted swarming.accepted population, swarming.scalar.population q population⟩
  have assembled := opened_assembled swarming.large (swarming.scalar.evaluator.wide _) warm s _ _
    opened
  rw [(updateBest_ensures _ _ folded).1]
  exact assembled.folded

/-- What holds between two generations. The population has been evaluated. Every particle remembers
the best place of the runs before, or the place where it is if there are none. -/
structure Aware (plan : Plan σ) (earlier : List (Run Float Value)) (run : Run Float Value)
    (F bestX bestF : Rows Float) : Prop where
  underway : run.Underway plan.settings.popSize plan.target.bounds.dim 1
  scored : run.Scored F
  memory : ∃ velocity, run.swarm = ⟨some velocity, some bestX, some bestF⟩
  single : bestF.Single
  bests : earlier = [] ∧ bestX = run.X ∧ bestF = F ∨
    Swarm.PersonalBests run.popSize earlier bestX bestF

theorem Aware.complete (h : plan.Aware earlier run F bestX bestF) :
    ∃ velocity, run.swarm = ⟨some velocity, some bestX, some bestF⟩ ∧
      bestX.size = run.popSize ∧ bestF.size = run.popSize := by
  obtain ⟨velocity, memory⟩ := h.memory
  refine ⟨velocity, memory, ?_⟩
  obtain ⟨-, none | ⟨_, _, _, same, -, shapedX, shapedF⟩⟩ := h.underway.recollects
  · rw [memory] at none
    cases none
  · rw [memory] at same
    cases same
    rw [h.underway.popSize]
    exact ⟨shapedX.size, shapedF.size⟩

/-- After a look at the population the best places are those of the whole history. -/
theorem Aware.look (h : plan.Aware earlier run F bestX bestF) :
    (Swarm.remember run.X F bestX bestF).2.Single ∧
      Swarm.PersonalBests run.popSize (earlier ++ [run]) (Swarm.remember run.X F bestX bestF).1
        (Swarm.remember run.X F bestX bestF).2 := by
  obtain ⟨velocity, -, sizeX, sizeF⟩ := h.complete
  refine ⟨Swarm.single_remember h.scored.single h.single h.scored.size sizeX sizeF, ?_⟩
  rcases h.bests with ⟨rfl, rfl, rfl⟩ | bests
  · exact Swarm.personalBests_first h.scored sizeX
  · exact bests.look h.scored h.single sizeX sizeF

theorem Aware.positions (h : plan.Aware earlier run F bestX bestF) :
    run.X.Shaped run.popSize run.dim := by
  rw [h.underway.popSize, h.underway.dim]
  exact h.underway.positions

/-- A swarm that is ready for its first generation remembers where its particles are. -/
theorem Swarming.aware_ready (swarming : plan.Swarming settings) {s s' t t' : Session σ}
    (begun : plan.begin.run (plan.start, s) = (.ok (), (run, s')))
    (prepared : (Strategy.prepare plan.settings).run (run, t) = (.ok (), (run', t'))) :
    ∃ F, plan.Aware [] run' F run'.X F := by
  rw [begin] at begun
  obtain ⟨_, s₁, populated, begun⟩ := of_run_bind begun
  obtain ⟨_, s₂, evaluated, folded⟩ := of_run_bind begun
  obtain ⟨F, upheld⟩ := upheld_opening swarming.accepted swarming.checked swarming.scalar populated
    evaluated folded
  have underway := swarming.opening_underway populated evaluated folded
  have ready := (Strategy.prepare_proceeds (s := (run, t)) underway plan.settings).ensures _ _
    prepared
  rw [swarming.swarm] at prepared
  obtain ⟨velocity, same⟩ := Swarm.prepare_ensures (s := (run, t)) upheld.scored.known
    underway.recollects.1 _ _ prepared
  dsimp only at same
  have scored : run'.Scored F := by
    rw [same]
    exact ⟨upheld.scored.known, upheld.scored.size, upheld.scored.single, upheld.scored.fresh⟩
  refine ⟨F, ready, scored, ⟨velocity, ?_⟩, scored.single, .inl ⟨rfl, rfl, rfl⟩⟩
  rw [same]

theorem Swarming.step_eq (swarming : plan.Swarming settings) :
    Strategy.step plan.settings plan.evaluator = Swarm.step settings := by
  rw [swarming.swarm]
  rfl

/-- Every step is a flight, which begins with a look at the population. -/
theorem Aware.flown (swarming : plan.Swarming settings) (h : plan.Aware earlier run F bestX bestF)
    {s : Session σ} {s₁ : Run Float Value × Session σ}
    (stepped : (Strategy.step plan.settings plan.evaluator).run (run, s) = (.ok (), s₁)) :
    ∃ velocity, Swarm.Flown settings run s₁.1 velocity (Swarm.remember run.X F bestX bestF).1
      (Swarm.remember run.X F bestX bestF).2 := by
  obtain ⟨velocity, memory⟩ := h.memory
  rw [swarming.step_eq] at stepped
  exact Swarm.step_flown (s := (run, s)) swarming.checked_swarm memory h.scored.known
    h.underway.recollects.1 h.positions _ _ stepped

/-- A generation has the whole swarm evaluated at the places it has flown to. -/
theorem Aware.next (swarming : plan.Swarming settings) (h : plan.Aware earlier run F bestX bestF)
    (marks : run.stale.size = run.popSize) {s s' : Session σ}
    (completed : (Strategy.generation plan.settings plan.evaluator).run (run, s) =
      (.ok (), (run', s'))) :
    ∃ F', plan.Aware (earlier ++ [run]) run' F' (Swarm.remember run.X F bestX bestF).1
      (Swarm.remember run.X F bestX bestF).2 := by
  have scalar := swarming.scalar.evaluator
  obtain ⟨_, s₁, s₂, s₃, stepped, evaluated, folded, same⟩ := Strategy.generation_parts completed
  cases same
  obtain ⟨velocity, flown⟩ := h.flown swarming stepped
  rw [swarming.step_eq] at stepped
  have underway₁ := (Swarm.step_proceeds (s := (run, s)) swarming.large h.underway
    settings).ensures _ _ stepped
  obtain ⟨same, all⟩ := Swarm.step_sameCounts (s := (run, s)) settings _ _ stepped
  have stale : s₁.1.stalePlaces = List.range s₁.1.popSize := by
    rw [all marks, same.popSize]
  have large : 0 < s₁.1.popSize := by
    rw [underway₁.popSize]
    exact swarming.large
  have sizes (F₁ : Rows Float) (known : s₁.1.F = some F₁) : F₁.size = s₁.1.popSize := by
    obtain ⟨F₂, stored, shaped⟩ := underway₁.fitness
    cases stored.symm.trans known
    rw [shaped.size, underway₁.popSize]
  obtain ⟨F', -, -, -, -, scored⟩ := Run.scored_of_stale scalar stale large sizes _ _ evaluated
  obtain ⟨underway₂, kept⟩ := Run.evaluateAll_underway (scalar.wide _) underway₁ _ _ evaluated
  have changed := (updateBest_ensures _ _ folded).1
  obtain ⟨single, bests⟩ := h.look
  have popSize : s₂.1.popSize = run.popSize := by rw [underway₂.popSize, h.underway.popSize]
  rw [changed]
  refine ⟨F', (underway₂.folded _).completeGeneration,
    ⟨scored.known, scored.size, scored.single, scored.fresh⟩, ⟨velocity, kept.trans flown.memory⟩,
    single, .inr ?_⟩
  change Swarm.PersonalBests s₂.1.popSize _ _ _
  rwa [popSize]

/-- By induction over the generations. -/
theorem Succession.aware (swarming : plan.Swarming settings) (h : plan.Succession earlier run) :
    ∃ F bestX bestF, plan.Aware earlier run F bestX bestF := by
  induction h with
  | ready begun prepared =>
    obtain ⟨F, aware⟩ := swarming.aware_ready begun prepared
    exact ⟨F, _, F, aware⟩
  | next before completed ih =>
    obtain ⟨F, bestX, bestF, aware⟩ := ih
    have marks := (swarming.scalar.paired swarming.accepted before.reached).sizeStale
    obtain ⟨F', aware'⟩ := aware.next swarming marks completed
    exact ⟨F', _, _, aware'⟩

/-- Every place of the population is held by a particle that has a fitness. -/
theorem Aware.holder (h : plan.Aware earlier run F bestX bestF) {i : Nat}
    (inside : i < run.popSize) : ∃ x f, run.holder i = some (x, #[f]) := by
  have one := (h.scored.single.row (by rwa [h.scored.size])).size
  obtain ⟨f, same⟩ := Array.size_eq_one_iff.mp one
  refine ⟨run.X.row i, f, ?_⟩
  rw [Run.holder_eq h.scored.known, same]

/-- The look at the population does not fail, and has no other effect. -/
theorem Aware.updateBests (swarming : plan.Swarming settings)
    (h : plan.Aware earlier run F bestX bestF) (s : Session σ) :
    ∃ folded : Run Float Value, Swarm.updateBests.run (run, s) = (.ok (), (folded, s)) ∧
      folded.swarm.bestX = some (Swarm.remember run.X F bestX bestF).1 ∧
      folded.swarm.bestF = some (Swarm.remember run.X F bestX bestF).2 := by
  obtain ⟨velocity, memory⟩ := h.memory
  have known : ¬(!run.remembers .velocity) = true := by
    simp [Run.remembers, Swarm.Memory.get, memory]
  have complete := Swarm.complete_of_remembers h.underway known
  obtain ⟨_, s₁, folded, -⟩ := exists_of_ends
    (Swarm.updateBests_proceeds (s := (run, s)) swarming.large h.underway complete)
  have same := Swarm.updateBests_ensures (s := (run, s)) memory h.scored.known
    h.underway.recollects.1 _ _ folded
  rw [same] at folded
  exact ⟨_, folded, rfl, rfl⟩

/-- The best places of a particle swarm with a single objective. Take a run between two generations,
and all runs before it. The next step first folds the fitness of the population into the best
places. That does not fail, and then the best place of every particle is the last one of its places
so far, in all these runs, that has the least fitness; it comes with that fitness. The rest of the
step does not fail either, and leaves the best places as they are. Every velocity is within the
limit, so far as it is a number, and every particle moves by its velocity and is kept in the box.
What a solver reports comes from such runs. -/
theorem personal_bests {plan : Plan σ} {settings : Swarm.Settings}
    (swarming : plan.Swarming settings) :
    (∀ n run, plan.Reached n run → ∃ earlier, earlier.length = n ∧ plan.Succession earlier run) ∧
    (∀ earlier run, plan.Succession earlier run →
      (run.popSize = settings.popSize ∧
        ∀ i < settings.popSize, ∃ x f, run.holder i = some (x, #[f])) ∧
      ∀ s, ∃ folded bestX bestF, Swarm.updateBests.run (run, s) = (.ok (), (folded, s)) ∧
        folded.swarm.bestX = some bestX ∧ folded.swarm.bestF = some bestF ∧
        Swarm.PersonalBests settings.popSize (earlier ++ [run]) bestX bestF ∧
        ∃ run' s' velocity, (Strategy.step plan.settings plan.evaluator).run (run, s) =
            (.ok (), (run', s')) ∧
          Swarm.Flown settings run run' velocity bestX bestF) ∧
    ∀ st result st', st.1.history = #[] → plan.solve.run st = (.ok result, st') →
      ∃ n run history, plan.Reached n run ∧ plan.Recorded history n ∧
        plan.resultOf run history.toList = .ok result := by
  refine ⟨fun n run reached => reached.succession, fun earlier run succession => ?_,
    fun st result st' none h => of_run_solve none h⟩
  obtain ⟨F, bestX, bestF, aware⟩ := succession.aware swarming
  have popSize : run.popSize = settings.popSize := by
    rw [aware.underway.popSize, swarming.swarm]
    rfl
  rw [← popSize]
  refine ⟨⟨rfl, fun i inside => aware.holder inside⟩, fun s => ?_⟩
  obtain ⟨folded, looked, foundX, foundF⟩ := aware.updateBests swarming s
  obtain ⟨-, bests⟩ := aware.look
  have proceeds := Swarm.step_proceeds (s := (run, s)) swarming.large aware.underway settings
  rw [← swarming.step_eq] at proceeds
  obtain ⟨_, s₁, stepped, -⟩ := exists_of_ends proceeds
  obtain ⟨velocity, flown⟩ := aware.flown swarming stepped
  exact ⟨folded, _, _, looked, foundX, foundF, bests, s₁.1, s₁.2, velocity, stepped, flown⟩

theorem swarmPlan_swarming : swarmPlan.Swarming { popSize := 2 } where
  accepted := swarmPlan_accepted
  swarm := rfl
  checked := ⟨[("pop_size", .int 2)], rfl⟩
  scalar := ⟨Backend.isScalar_of_answers squares_answers squares_isScalar
    (Backend.serial_returnsSerial _), nofun⟩

theorem swarmPlan_steady : swarmPlan.Steady squares squareOf 1 where
  checked := swarmPlan_swarming.checked
  cold := rfl
  target := rfl
  answers := squares_answers
  total := ⟨nofun, fun _ _ => ⟨_, _, rfl, rfl⟩⟩
  objective := by decide
  short := by decide
  chunked := ⟨1, none, Backend.serial_inChunks squares_answers⟩

/-- A swarm of two that has flown once and flies off again: its particles remember the better ones
of the two places where each of them has been. -/
theorem personal_bests_of_two : ∃ run run₁ bestX bestF run₂ velocity,
    swarmPlan.Succession [] run ∧ run.holder 0 = some (#[0.5], #[0.25]) ∧
    run.holder 1 = some (#[0.25], #[0.0625]) ∧ swarmPlan.Succession [run] run₁ ∧
    Swarm.PersonalBests 2 [run, run₁] bestX bestF ∧
    (∃ s', (Strategy.step swarmPlan.settings swarmPlan.evaluator).run (run₁, ⟨(), #[]⟩) =
      (.ok (), (run₂, s'))) ∧
    Swarm.Flown { popSize := 2 } run₁ run₂ velocity bestX bestF := by
  let begun := swarmPlan.begin.run (swarmPlan.start, ⟨(), #[]⟩)
  let prepared := (Strategy.prepare swarmPlan.settings : Search Unit Float Value Unit).run begun.2
  have begins : begun.1.toBool = true := by decide +kernel
  have prepares : prepared.1.toBool = true := by decide +kernel
  have ready : swarmPlan.Succession [] prepared.2.1 :=
    .ready (run_eq_ok begins) (run_eq_ok prepares)
  obtain ⟨_, _, _, aware⟩ := ready.aware swarmPlan_swarming
  obtain ⟨_, s₁, completed, -⟩ := exists_of_ends
    (swarmPlan_steady.proceeds (s := (prepared.2.1, ⟨(), #[]⟩)) aware.underway)
  have next : swarmPlan.Succession [prepared.2.1] s₁.1 := .next ready completed
  obtain ⟨-, flies, -⟩ := personal_bests swarmPlan_swarming
  obtain ⟨-, flies⟩ := flies _ _ next
  obtain ⟨_, bestX, bestF, -, -, -, bests, run₂, s₂, velocity, stepped, flown⟩ := flies ⟨(), #[]⟩
  exact ⟨_, _, bestX, bestF, run₂, velocity, ready, by decide +kernel, by decide +kernel, next, bests,
    ⟨s₂, stepped⟩, flown⟩

end Plan

end BoxSearch
