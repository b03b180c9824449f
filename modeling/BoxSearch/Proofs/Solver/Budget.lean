import BoxSearch.Proofs.Solver.Elitism
import BoxSearch.Proofs.Solver.Progress
import BoxSearch.Proofs.Strategy.Budget

/-!
What a run costs.

The books tell how many rows were evaluated: all members of the first population, and after that in
every generation what its strategy costs. No row is evaluated a second time because it was accepted,
so nothing is left to be evaluated after a step, except by a swarm.
-/

namespace BoxSearch

open Search

variable {σ : Type}

namespace Plan

variable {plan : Plan σ} {n w : Nat} {run : Run Float Value} {ledger : List (Member Float Value)}
  {p : Problem σ} {g : Row Float → Except Raised Value}

/-- A plan that starts cold, with checked settings, on an objective that answers every point of the
space with `w` objectives, whatever its batches are cut into. -/
structure Steady (plan : Plan σ) (p : Problem σ) (g : Row Float → Except Raised Value) (w : Nat) :
    Prop where
  checked : plan.settings.Checked
  cold : plan.population = none
  target : plan.target = .problem p
  answers : p.Answers g
  total : p.Total g p.bounds.dim w
  objective : 1 ≤ w
  short : p.bounds.dim ≤ 2 ^ 63
  chunked : ∃ workers chunk, plan.backend.InChunks (.problem p) workers chunk

theorem Steady.evaluator (steady : plan.Steady p g w) :
    plan.evaluator.Total p.bounds.dim w := by
  obtain ⟨workers, chunk, chunked⟩ := steady.chunked
  rw [Plan.evaluator, steady.target]
  exact Backend.total_of_inChunks steady.answers steady.total chunked

theorem Steady.dim_eq (steady : plan.Steady p g w) : plan.target.bounds.dim = p.bounds.dim := by
  rw [steady.target]
  rfl

/-- Every generation of a steady plan succeeds. -/
theorem Steady.proceeds (steady : plan.Steady p g w) {s : Run Float Value × Session σ}
    (underway : s.1.Underway plan.settings.popSize p.bounds.dim w) :
    Proceeds plan.settings.popSize p.bounds.dim w
      (Strategy.generation plan.settings plan.evaluator) s := by
  refine Strategy.generation_proceeds steady.evaluator steady.objective underway
    steady.checked.two_le_popSize steady.short ?_
  intro de settings
  have donors := steady.checked
  rw [settings] at donors ⊢
  exact donors.donors_lt_popSize

theorem generation_run {count : Nat} {s s₁ s₂ s₃ : Run Float Value × Session σ}
    (stepped : (Strategy.step plan.settings plan.evaluator).run s = (.ok (), s₁))
    (evaluated : (evaluateAll plan.evaluator).run s₁ = (.ok count, s₂))
    (folded : updateBest.run s₂ = (.ok (), s₃)) :
    (Strategy.generation plan.settings plan.evaluator).run s =
      (.ok (), (s₃.1.completeGeneration, s₃.2)) := by
  rw [Strategy.generation, run_bind, stepped]
  change (evaluateAll plan.evaluator >>= _).run s₁ = _
  rw [run_bind, evaluated]
  change (updateBest >>= _).run s₂ = _
  rw [run_bind, folded]
  rfl

theorem Chronicled.reached (h : plan.Chronicled n run ledger) : plan.Reached n run := by
  induction h with
  | @ready count s t s₁ s₂ s₃ s₄ populated evaluated folded prepared =>
    have begun : plan.begin.run (plan.start, s) = (.ok (), (s₃.1, s₃.2)) := by
      rw [begin, run_bind, populated]
      change (evaluateAll plan.evaluator >>= fun _ => updateBest).run s₁ = _
      rw [run_bind, evaluated]
      exact folded
    exact .ready begun prepared
  | @next n count run ledger s s₁ s₂ s₃ before stepped evaluated folded ih =>
    exact .next ih (generation_run stepped evaluated folded)

theorem Steady.honest (steady : plan.Steady p g w) : plan.evaluator.Honest (p.Scores g False) := by
  obtain ⟨workers, chunk, chunked⟩ := steady.chunked
  rw [Plan.evaluator, steady.target]
  exact Backend.honest_of_returnsSerial steady.answers
    (Backend.returnsSerial_of_inChunks steady.answers chunked) False

theorem Steady.warm (steady : plan.Steady p g w) (q : Population.Evaluated Float)
    (h : plan.population = some q) : q.Even plan.target.bounds.dim ∧
      ∀ i < q.X.size, p.Scores g False (q.X.row i) ((q.F.row i).map Fitness.ranked) none := by
  rw [steady.cold] at h
  cases h

theorem Steady.faithful (steady : plan.Steady p g w) (reached : plan.Reached n run) :
    run.Faithful (p.Scores g False) ∧ run.stalePlaces = [] := by
  obtain ⟨faithful, fresh, -⟩ := reached_faithful steady.honest steady.warm reached
  exact ⟨faithful, fresh⟩

/-- Between two generations nothing waits, and the books count the ledger. -/
structure Counted (plan : Plan σ) (d w n : Nat) (ledger : List (Member Float Value))
    (run : Run Float Value) : Prop where
  underway : run.Underway plan.settings.popSize d w
  idle : run.pending = #[]
  nEval : run.nEval = ledger.length
  budget : plan.settings.Budget plan.settings.popSize n run.nEval

/-- The first population is evaluated, each member once. -/
theorem Steady.counted_opening (steady : plan.Steady p g w) {count : Nat} {s : Session σ}
    {s₁ s₂ s₃ : Run Float Value × Session σ}
    (populated : plan.populate.run (plan.start, s) = (.ok (), s₁))
    (evaluated : (evaluateAll plan.evaluator).run s₁ = (.ok count, s₂))
    (folded : updateBest.run s₂ = (.ok (), s₃)) :
    plan.Counted p.bounds.dim w 0 s₂.1.waiting s₃.1 := by
  rw [populate, steady.cold] at populated
  have large : 0 < plan.settings.popSize := by
    have two := steady.checked.two_le_popSize
    omega
  obtain ⟨sampled, -, -⟩ := Opening.populate_sampled _ (s := (plan.start, s)) rfl _ _ populated
  have nothing : s₁.1.nEval = 0 := (Run.populate_accounts _ _ _ populated).nEval
  rw [steady.dim_eq] at sampled
  have assembled := Run.assembled_of_sampled steady.evaluator.wide large sampled _ _ evaluated
  obtain ⟨counted, spends, -⟩ := evaluateAll_spends _ _ evaluated
  have changed := (updateBest_ensures _ _ folded).1
  rw [sampled.stale, List.length_range] at counted
  have idle : s₁.1.waiting = [] := by simp [Run.waiting, sampled.idle]
  have waiting : s₂.1.waiting.length = plan.settings.popSize := by
    rw [spends.waiting, idle, counted]
    exact Nat.zero_add _
  have nEval : s₂.1.nEval = plan.settings.popSize := by
    rw [spends.nEval, nothing, counted, Nat.zero_add]
  rw [changed]
  refine ⟨assembled.folded, rfl, ?_, ?_⟩
  · rw [waiting]
    exact nEval
  · rw [show _ = plan.settings.popSize from nEval]
    exact Settings.budget_zero _ _

/-- A generation adds what its strategy costs. -/
theorem Steady.counted_generation (steady : plan.Steady p g w) (reached : plan.Reached n run)
    (h : plan.Counted p.bounds.dim w n ledger run) {count : Nat} {s : Session σ}
    {s₁ s₂ s₃ : Run Float Value × Session σ}
    (stepped : (Strategy.step plan.settings plan.evaluator).run (run, s) = (.ok (), s₁))
    (evaluated : (evaluateAll plan.evaluator).run s₁ = (.ok count, s₂))
    (folded : updateBest.run s₂ = (.ok (), s₃)) :
    plan.Counted p.bounds.dim w (n + 1) (ledger ++ s₂.1.waiting) s₃.1.completeGeneration ∧
      count = plan.settings.stale plan.settings.popSize ∧
      ∃ rows, plan.settings.Costs plan.settings.popSize rows ∧ s₃.1.nEval = run.nEval + rows := by
  obtain ⟨faithful, fresh⟩ := steady.faithful reached
  obtain ⟨rows, charges⟩ := Strategy.step_charges (s := (run, s)) h.underway fresh
    faithful.paired.sizeStale _ _ _ stepped
  obtain ⟨counted, spends, -⟩ := evaluateAll_spends _ _ evaluated
  have changed := (updateBest_ensures _ _ folded).1
  rw [charges.stale] at counted
  have before : run.waiting = [] := by simp [Run.waiting, h.idle]
  have nEval : s₃.1.nEval = run.nEval + (rows + count) := by
    rw [changed]
    change s₂.1.nEval = _
    rw [spends.nEval, charges.nEval, Nat.add_assoc]
  have waiting : s₂.1.waiting.length = rows + count := by
    rw [spends.waiting, charges.waiting, before]
    simp
  have costs := charges.costs
  rw [← counted] at costs
  have completed := generation_run stepped evaluated folded
  have underway := (steady.proceeds (s := (run, s)) h.underway).ensures _ _ completed
  refine ⟨⟨underway, ?_, ?_, ?_⟩, counted, _, costs, nEval⟩
  · rw [changed]
    rfl
  · change s₃.1.nEval = _
    rw [nEval, h.nEval, List.length_append, waiting]
  · change plan.settings.Budget _ _ s₃.1.nEval
    rw [nEval]
    exact h.budget.next costs

theorem Steady.counted (steady : plan.Steady p g w) (h : plan.Chronicled n run ledger) :
    plan.Counted p.bounds.dim w n ledger run := by
  induction h with
  | @ready count s t s₁ s₂ s₃ s₄ populated evaluated folded prepared =>
    have opened := steady.counted_opening populated evaluated folded
    have same := Strategy.prepare_counts plan.settings _ _ prepared
    have underway := (Strategy.prepare_proceeds (s := (s₃.1, t)) opened.underway
      plan.settings).ensures _ _ prepared
    refine ⟨underway, same.pending.trans opened.idle, same.nEval.trans opened.nEval, ?_⟩
    rw [same.nEval]
    exact opened.budget
  | next before stepped evaluated folded ih =>
    exact (steady.counted_generation before.reached ih stepped evaluated folded).1

end Plan

/-- Three points to start from. -/
def threePoints : Initializer Unit :=
  .custom (ExceptT.mk fun s =>
    (.ok (.list [.list [.float 0.75], .list [.float 0.5], .list [.float 0.25]]), s))

/-- Three fireflies between two ends. -/
def fireflyPlan : Plan Unit :=
  { swarmPlan with
    settings := .firefly { popSize := 3 }
    target := .problem bothEnds
    initializer := some threePoints }

namespace Plan

theorem fireflyPlan_steady : fireflyPlan.Steady bothEnds bothEndsOf 2 where
  checked := ⟨[("pop_size", .int 3)], rfl⟩
  cold := rfl
  target := rfl
  answers := Strategy.bothEnds_answers
  total := Strategy.bothEnds_total
  objective := by decide
  short := by decide
  chunked := ⟨1, none, Backend.serial_inChunks Strategy.bothEnds_answers⟩

end Plan

end BoxSearch
