import BoxSearch.Proofs.Solver.Budget
import BoxSearch.Proofs.Solver.Elitism
import BoxSearch.Proofs.Strategy.Competition

/-!
Selection in whole runs of the genetic strategy.

Between two generations every individual of a population with a single objective has been evaluated,
so that of every family with a new child the best two of four go on to the next generation.
-/

namespace BoxSearch

open Search

variable {σ P : Type}

/-- Fitness of a single objective is at least fitness. -/
theorem Evaluator.IsScalar.honest {evaluator : Evaluator σ Float P} (scalar : evaluator.IsScalar) :
    evaluator.Honest fun _ _ _ => True := by
  intro rows ses block ses' width raw filled answered shaped
  obtain ⟨one, single⟩ := scalar rows ses block ses' width raw filled answered shaped
  have size := Run.size_blockRows shaped
  refine ⟨size, fun k inside => ⟨?_, trivial⟩⟩
  rw [one]
  exact single _ (Rows.row_mem (by rwa [size]))

namespace Plan

variable {plan : Plan σ} {settings : Genetic.Settings} {n : Nat} {run run' : Run Float Value}

/-- In a run with a single objective all rows have a position and a mark. -/
theorem IsScalar.paired (scalar : plan.IsScalar) (accepted : plan.Accepted)
    (reached : plan.Reached n run) : run.Paired fun _ _ _ => True := by
  have warm (q : Population.Evaluated Float) (h : plan.population = some q) :
      q.Even plan.target.bounds.dim ∧ ∀ i < q.X.size, True :=
    ⟨even_of_accepted accepted h, fun _ _ => trivial⟩
  exact (reached_faithful scalar.evaluator.honest warm reached).1.paired

theorem Elitist.positions (elitist : plan.Elitist) (reached : plan.Reached n run) :
    run.X.size = run.popSize :=
  (elitist.scalar.paired elitist.accepted reached).sizeX

/-- After the step of a generation all places stay with their holders. -/
theorem Elitist.holder_settled (elitist : plan.Elitist) (reached : plan.Reached n run)
    {s s' : Session σ} {s₁ : Run Float Value × Session σ}
    (stepped : (Strategy.step plan.settings plan.evaluator).run (run, s) = (.ok (), s₁))
    (completed : (Strategy.generation plan.settings plan.evaluator).run (run, s) =
      (.ok (), (run', s'))) (i : Nat) : run'.holder i = s₁.1.holder i := by
  have scalar := elitist.scalar.evaluator
  obtain ⟨ledger, chronicled⟩ := reached.chronicled
  obtain ⟨F, upheld⟩ := chronicled.upheld elitist
  obtain ⟨_, advances⟩ := Strategy.step_advances (s := (run, s)) elitist.other scalar upheld.scored
    _ _ stepped
  obtain ⟨F', scored, -⟩ := advances.scored scalar upheld.scored
  rw [Strategy.generation, run_bind, stepped] at completed
  obtain ⟨_, s₂, evaluated, completed⟩ := of_run_bind completed
  obtain ⟨_, s₃, folded, completed⟩ := of_run_bind completed
  cases completed
  have same : s₂ = s₁ := evaluateAll_idle scored.fresh _ _ evaluated
  subst same
  have changed := (updateBest_ensures _ _ folded).1
  change s₃.1.holder i = s₂.1.holder i
  rw [changed]
  rfl

/-- Selection in the genetic strategy with a single objective. Before every generation each place is
held by an individual with its fitness. The step pairs the population off, evaluates two children
for every family that has a new one, and leaves to the two parents' places the best two of these
four. All others keep their places. The rest of the generation changes no place. What a solver
reports comes from such runs. -/
theorem best_two_of_four {plan : Plan σ} {settings : Genetic.Settings} (elitist : plan.Elitist)
    (genetic : plan.settings = .genetic settings) :
    (∀ n run, plan.Reached n run → run.popSize = settings.popSize ∧
      (∀ i < settings.popSize, ∃ F, run.F = some F ∧ i < F.size ∧ i < run.X.size) ∧
      ∀ s s₁, (Strategy.step plan.settings plan.evaluator).run (run, s) = (.ok (), s₁) →
        (∃ order families answers, Genetic.Selected run order families answers s₁.1 ∧
          s₁.1.nEval = run.nEval + answers.length ∧
          ∀ R : Rating Float Value, plan.evaluator.Honest R →
            ∀ m ∈ answers, R m.x m.f m.product) ∧
        ∀ run' s', (Strategy.generation plan.settings plan.evaluator).run (run, s) =
          (.ok (), (run', s')) → ∀ i, run'.holder i = s₁.1.holder i) ∧
    ∀ st result st', st.1.history = #[] → plan.solve.run st = (.ok result, st') →
      ∃ n run history, plan.Reached n run ∧ plan.Recorded history n ∧
        plan.resultOf run history.toList = .ok result := by
  refine ⟨fun n run reached => ?_, fun st result st' none h => of_run_solve none h⟩
  obtain ⟨ledger, chronicled⟩ := reached.chronicled
  obtain ⟨F, upheld⟩ := chronicled.upheld elitist
  have positions := elitist.positions reached
  have popSize : run.popSize = settings.popSize := by
    rw [upheld.popSize, genetic]
    rfl
  refine ⟨popSize, fun i inside => ⟨F, upheld.scored.known, ?_, ?_⟩, fun s s₁ stepped => ⟨?_, ?_⟩⟩
  · rwa [upheld.scored.size, popSize]
  · rwa [positions, popSize]
  · rw [genetic] at stepped
    obtain ⟨order, families, answers, selected, moves⟩ := Genetic.step_selected (s := (run, s))
      elitist.scalar.evaluator upheld.scored positions settings _ _ stepped
    exact ⟨order, families, answers, selected, moves.accounts.nEval, fun R => moves.honest⟩
  · exact fun run' s' completed => elitist.holder_settled reached stepped completed

end Plan

/-- Three individuals that minimise squares. -/
def familyPlan : Plan Unit :=
  { swarmPlan with
    settings := .genetic { popSize := 3 }
    initializer := some threePoints }

namespace Plan

theorem familyPlan_elitist : familyPlan.Elitist where
  accepted := ⟨{ swarmRequest with
      strategy := .strategy (.genetic { popSize := 3 })
      initializer := .function threePoints }, 0, ⟨(), #[]⟩, _, rfl⟩
  checked := ⟨[("pop_size", .int 3)], rfl⟩
  other := nofun
  scalar := ⟨Backend.isScalar_of_answers squares_answers squares_isScalar
    (Backend.serial_returnsSerial _), nofun⟩

theorem familyPlan_steady : familyPlan.Steady squares squareOf 1 where
  checked := familyPlan_elitist.checked
  cold := rfl
  target := rfl
  answers := squares_answers
  total := ⟨nofun, fun _ _ => ⟨_, _, rfl, rfl⟩⟩
  objective := by decide
  short := by decide
  chunked := ⟨1, none, Backend.serial_inChunks squares_answers⟩

/-- Of three individuals two are paired off, and the third one is left over: after the first step it
is where it was. -/
theorem selection_in_family : ∃ run, familyPlan.Reached 0 run ∧
    run.holder 0 = some (#[0.75], #[0.5625]) ∧ ∃ s₁ order families answers,
      (Strategy.step familyPlan.settings familyPlan.evaluator).run (run, ⟨(), #[]⟩) = (.ok (), s₁) ∧
      Genetic.Selected run order families answers s₁.1 ∧ order.length = 3 ∧ families.length = 1 ∧
      ∃ i, order[2]? = some i ∧ s₁.1.holder i = run.holder i := by
  obtain ⟨run, ready, first⟩ : ∃ run, familyPlan.Reached 0 run ∧
      run.holder 0 = some (#[0.75], #[0.5625]) := by
    let begun := familyPlan.begin.run (familyPlan.start, ⟨(), #[]⟩)
    have begins : begun.1.toBool = true := by decide +kernel
    exact ⟨begun.2.1, .ready (t := ⟨(), #[]⟩) (run_eq_ok begins) rfl, by decide +kernel⟩
  obtain ⟨ledger, chronicled⟩ := ready.chronicled
  have underway := (familyPlan_steady.counted chronicled).underway
  obtain ⟨_, _, completed, -⟩ := exists_of_ends
    (familyPlan_steady.proceeds (s := (run, ⟨(), #[]⟩)) underway)
  obtain ⟨_, s₁, _, _, stepped, -⟩ := Strategy.generation_parts completed
  obtain ⟨selects, -⟩ := best_two_of_four familyPlan_elitist rfl
  obtain ⟨three, -, step⟩ := selects 0 _ ready
  obtain ⟨⟨order, families, answers, selected, -⟩, -⟩ := step _ _ stepped
  have length : order.length = 3 := by
    rw [selected.perm.length_eq, List.length_range, three]
  have one : families.length = 1 := by
    have pairs := congrArg List.length selected.paired
    rwa [List.length_map, Genetic.length_pairs, length] at pairs
  have last : 2 < order.length := by omega
  refine ⟨run, ready, first, s₁, order, families, answers, stepped, selected, length, one,
    order[2], List.getElem?_eq_getElem last, selected.leftover _ ?_⟩
  have left : order.drop 2 = [order[2]] := by
    rw [List.drop_eq_getElem_cons last, List.drop_eq_nil_of_le (Nat.le_of_eq length)]
  rw [three]
  change order[2] ∈ order.drop 2
  rw [left]
  exact List.mem_singleton_self _

end Plan

end BoxSearch
