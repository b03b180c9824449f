import BoxSearch.Proofs.Solver.Course
import BoxSearch.Proofs.Solver.Opening
import BoxSearch.Proofs.Solver.Planning
import BoxSearch.Proofs.Stopping.Threshold

/-!
Runs that wait for a fitness.

A policy with a threshold compares single numbers. How many objectives there are becomes known in
three places: they may be declared, a population to start from has them, and at the latest the first
evaluation shows them. Each of these leads to the check of the policy before anything else happens.
So a run with several objectives is refused before anybody is told of it, and a run that goes on has
a single objective, and with it a number to compare, whenever the policy is asked.
-/

namespace BoxSearch

open Search

variable {σ : Type}

namespace Plan

variable {plan : Plan σ} {target : Float} {w : Nat} {session : Session σ}

/-- What happens before anybody is told of a run. -/
def untold : List (Event σ) :=
  [.populate, .evaluate, .fold, .prepare, .startPolicy]

/-- The run fails before anybody is told of it, and before the first step of the strategy. -/
def FailsUntold (plan : Plan σ) (session : Session σ) (err : Error) : Prop :=
  ∃ before e after st st', before ++ e :: after = untold ∧
    plan.play before (.start plan session) = (.ok (), st) ∧
    e.perform plan st = (.error err, st') ∧
    plan.solve.run (.fresh, session) = (.error err, (⟨.terminated, #[], none, plan.dues⟩,
      { st'.session with log := st'.session.log.push (.aborted 0) }))

/-- A failure of the opening is that of the run. -/
theorem run_solve_of_opening {err : Error} {st : Stage σ}
    (played : plan.play plan.opening (.start plan session) = (.error err, st)) :
    plan.solve.run (.fresh, session) = (.error err, (⟨.terminated, #[], none, plan.dues⟩,
      { st.session with log := st.session.log.push (.aborted 0) })) := by
  have starts : plan.Enacts plan.ready plan.opening .fresh (.start plan session)
      fun b st' => st'.At b.1 b.2 [] :=
    enacts_ready ⟨rfl, rfl, rfl⟩ ⟨rfl, rfl, rfl⟩
  unfold Enacts at starts
  rw [played] at starts
  obtain ⟨solver, ran, keeps⟩ := starts
  have ran : plan.ready.run (.fresh, session) = (.error err, (solver, st.session)) := ran
  have none : st.history = #[] := by
    have same : (plan.play plan.opening (.start plan session)).2.history = #[] :=
      play_unsummed (by simp [opening]) _
    rwa [played] at same
  have attempted : plan.attempt.run (.fresh, session) = (.error err, (solver, st.session)) := by
    rw [attempt_eq, run_bind, ran]
  obtain ⟨phase, history, result, releases⟩ := solver
  obtain ⟨rfl, rfl, rfl⟩ := keeps
  rw [run_solve, attempted, none]
  simp

theorem failsUntold_of_play {first rest : List (Event σ)} (shape : first ++ rest = untold)
    {err : Error} {st : Stage σ}
    (played : plan.play first (.start plan session) = (.error err, st)) :
    plan.FailsUntold session err := by
  have opened : plan.play plan.opening (.start plan session) = (.error err, st) := by
    have whole : plan.opening = first ++ (rest ++ plan.observers.map .tellStart) := by
      rw [← List.append_assoc, shape]
      rfl
    rw [whole, play_append, played]
  obtain ⟨before, e, after, mid, rfl, passed, failed⟩ := of_play_error played
  refine ⟨before, e, after ++ rest, mid, st, ?_, passed, failed, run_solve_of_opening opened⟩
  rw [← shape]
  simp

/-- The first population brings the run to a stage where its points are known. -/
theorem assembled_of_play (large : 0 < plan.settings.popSize)
    (wide : plan.evaluator.Wide plan.target.bounds.dim w)
    (warm : ∀ q, plan.population = some q → q.Even plan.target.bounds.dim ∧ q.width = w)
    {st : Stage σ}
    (played : plan.play [.populate, .evaluate] (.start plan session) = (.ok (), st)) :
    st.run.Assembled plan.settings.popSize plan.target.bounds.dim w := by
  have opens (st : Stage σ) : plan.play [.populate, .evaluate] st =
      st.search (plan.populate >>= fun _ => evaluateAll plan.evaluator) :=
    play_cons_search (fun _ => rfl) (play_single_search fun _ => rfl) st
  rw [opens] at played
  obtain ⟨_, opened, -⟩ := of_search played
  exact opened_assembled large wide warm session _ _ opened

/-- Known points can be folded, and the strategy prepared. -/
theorem play_fold_prepare (plan : Plan σ) {n d : Nat} (objective : w ≠ 0) {st : Stage σ}
    (assembled : st.run.Assembled n d w) : ∃ st', plan.play [.fold, .prepare] st = (.ok (), st') ∧
      st'.run.Underway n d w := by
  have goes (st : Stage σ) : plan.play [.fold, .prepare] st =
      st.search (updateBest >>= fun _ => Strategy.prepare plan.settings) :=
    play_cons_search (fun _ => rfl) (play_single_search fun _ => rfl) st
  have some : st.run.nObj ≠ some 0 := by
    rw [assembled.objectives, Ne, Option.some.injEq]
    omega
  obtain ⟨s₁, folded⟩ := updateBest_succeeds (s := (st.run, st.session)) some
  have underway : s₁.1.Underway n d w := by
    rw [(updateBest_ensures _ _ folded).1]
    exact assembled.folded
  obtain ⟨_, s₂, prepared, underway⟩ :=
    exists_of_ends (Strategy.prepare_proceeds underway plan.settings)
  refine ⟨{ st with run := s₂.1, session := s₂.2 }, ?_, underway⟩
  rw [goes, Stage.search, run_bind, folded]
  simp only [prepared]

/-- The policy is started with its check, and the start is logged. -/
theorem perform_startPolicy (rule : plan.policy.rule = .threshold target) (st : Stage σ) :
    Event.startPolicy.perform plan st =
      match plan.policy.checkObjectives st.run.view.nObj with
      | .ok _ => (.ok (), Stage.watched .fresh
          { st with session := { st.session with
              log := st.session.log.push (plan.startEvent st.run) } })
      | .error e => (.error e, st) := by
  rw [Event.perform, Stage.act, run_bind, Policy.run_start_threshold rule]
  cases plan.policy.checkObjectives st.run.view.nObj <;> rfl

/-- Several objectives that the first evaluation has shown are refused. -/
theorem failsUntold_several (rule : plan.policy.rule = .threshold target)
    (large : 0 < plan.settings.popSize) (several : 1 < w)
    (wide : plan.evaluator.Wide plan.target.bounds.dim w) (cold : plan.population = none)
    {st : Stage σ}
    (played : plan.play [.populate, .evaluate] (.start plan session) = (.ok (), st)) :
    plan.FailsUntold session (.configuration (.severalObjectives w)) := by
  have assembled := assembled_of_play large wide (by simp [cold]) played
  obtain ⟨st', ready, underway⟩ :=
    play_fold_prepare plan (Nat.ne_of_gt (Nat.zero_lt_of_lt several)) assembled
  have refused : Event.startPolicy.perform plan st' =
      (.error (.configuration (.severalObjectives w)), st') := by
    rw [perform_startPolicy rule, Run.Lasting.view_nObj underway.lasting underway.objectives,
      Policy.checkObjectives_of_lt rule (by exact_mod_cast several)]
  have stopped : plan.play untold (.start plan session) =
      (.error (.configuration (.severalObjectives w)), st') := by
    have whole : (untold : List (Event σ)) =
        [.populate, .evaluate] ++ ([.fold, .prepare] ++ [.startPolicy]) := rfl
    rw [whole, play_append, played]
    dsimp only
    rw [play_append, ready]
    dsimp only
    rw [play, refused]
  exact failsUntold_of_play (List.append_nil untold) stopped

/-- A single objective is accepted. -/
theorem starts_single (rule : plan.policy.rule = .threshold target)
    (large : 0 < plan.settings.popSize)
    (wide : plan.evaluator.Wide plan.target.bounds.dim 1)
    (warm : ∀ q, plan.population = some q → q.Even plan.target.bounds.dim ∧ q.width = 1)
    {st : Stage σ} (played : plan.play [.populate, .evaluate, .fold, .prepare]
      (.start plan session) = (.ok (), st)) :
    (Event.startPolicy.perform plan st).1 = .ok () := by
  have parts : plan.play ([.populate, .evaluate] ++ [.fold, .prepare]) (.start plan session) =
      (.ok (), st) := played
  obtain ⟨mid, first, second⟩ := of_play_append parts
  obtain ⟨st', ready, underway⟩ :=
    play_fold_prepare plan one_ne_zero (assembled_of_play large wide warm first)
  rw [second] at ready
  cases ready
  rw [perform_startPolicy rule, Run.Lasting.view_nObj underway.lasting underway.objectives]
  rw [Policy.checkObjectives_of_le rule (by simp)]

/-- A run that a policy with a threshold has let start has a single objective. -/
theorem lasting_of_opening (rule : plan.policy.rule = .threshold target)
    (large : 0 < plan.settings.popSize) {st : Stage σ}
    (played : plan.play plan.opening (.start plan session) = (.ok (), st)) : st.run.Lasting 1 := by
  have opens := of_play_opening played
  obtain ⟨run, s, t, t', begun, prepared⟩ := opens.ready
  obtain ⟨w, some, known, lasting⟩ := begin_lasting large session _ _ begun
  have same := Strategy.prepare_objectives plan.settings _ _ prepared
  have lasts := Strategy.prepare_lasting (s := (run, t)) plan.settings lasting _ _ prepared
  have shown : st.run.view.nObj = Option.some (w : Int) := lasts.view_nObj (same.trans known)
  obtain ⟨watch, u, u', started⟩ := opens.started
  rw [Policy.run_start_threshold rule, shown] at started
  cases passed : plan.policy.checkObjectives (Option.some (w : Int)) with
  | error e =>
    rw [passed] at started
    cases started
  | ok _ =>
    have one := Policy.le_of_checkObjectives rule passed
    obtain rfl : w = 1 := by omega
    exact lasts

theorem lasting_of_rounds {n : Nat} {st st' : Stage σ} (lasting : st.run.Lasting w)
    (played : plan.play (plan.rounds n) st = (.ok (), st')) : st'.run.Lasting w := by
  induction n generalizing st with
  | zero =>
    cases played
    exact lasting
  | succ n ih =>
    rw [rounds_succ] at played
    obtain ⟨mid, first, rest⟩ := of_play_append played
    obtain ⟨_, completes⟩ := of_play_round first
    obtain ⟨_, _, completed⟩ := completes.completed
    exact ih (Strategy.generation_lasting plan.settings lasting _ _ completed) rest

/-- Whenever a policy with a threshold is asked, there is a number for it to compare. -/
theorem asks_number (rule : plan.policy.rule = .threshold target)
    (large : 0 < plan.settings.popSize) {n : Nat} {st : Stage σ}
    (played : plan.play (plan.opening ++ plan.rounds n ++ plan.turn) (.start plan session) =
      (.ok (), st)) : ∃ f, st.run.view.bestF = some (.number f) ∧
        Event.ask.perform plan st =
          (.ok (), Stage.answered plan (decide (f ≤ target), st.watch) st) := by
  obtain ⟨mid, before, turned⟩ := of_play_append played
  obtain ⟨opened, opens, rounds⟩ := of_play_append before
  have lasting := lasting_of_rounds (lasting_of_opening rule large opens) rounds
  obtain ⟨⟨_, _, completed⟩, -⟩ := of_play_turn turned
  have lasts := Strategy.generation_lasting plan.settings lasting _ _ completed
  obtain ⟨f, best⟩ := Run.Lasting.bestF_number lasts
  have shown : st.run.view.bestF = some (.number f) := by
    simp [Run.view, best, Except.toOption]
  refine ⟨f, shown, ?_⟩
  rw [Event.perform, Stage.act, Policy.run_ruleHolds_threshold rule _ _ shown]

/-- A policy with a threshold never meets several objectives. A request that has nothing else
against it is refused while it is planned, and nothing has happened, if several objectives are
declared or the population to start from has several; otherwise it is granted. A run that samples
its first population fails before anybody is told of it, and before the first step of the strategy:
if the first evaluation shows several objectives then for that reason, and if it does not get that
far then for what went wrong. A single objective is no reason to fail. And whatever the evaluator
answers, whenever the policy is asked there is a number as the best fitness, which is compared with
the threshold. -/
theorem threshold_meets_numbers {r : Request σ} {fresh : Nat} {s s' : Session σ} {plan : Plan σ}
    {p : Policy σ Float} {target : Float}
    (granted : (ofRequest { r with stopping := .ready unruled } fresh).run s = (.ok plan, s'))
    (checked : plan.settings.Checked) (asked : Policy.ofSource r.stopping = .ok p)
    (rule : p.rule = .threshold target) :
    let ruled := { plan with policy := p }
    (∀ n : Int, 1 < n →
      (plan.target.nObj = some n ∨ ∃ q, plan.population = some q ∧ n = q.width) →
      (ofRequest r fresh).run s = (.error (.configuration (.severalObjectives n)), s)) ∧
    ((∀ n, plan.target.nObj = some n → n ≤ 1) → (∀ q, plan.population = some q → q.width = 1) →
      (ofRequest r fresh).run s = (.ok ruled, s')) ∧
    ∀ session,
      (∀ w, 1 < w → ruled.evaluator.Wide plan.target.bounds.dim w → plan.population = none →
        (∀ err st, ruled.play [.populate, .evaluate] (.start ruled session) = (.error err, st) →
          ruled.FailsUntold session err) ∧
        ∀ st, ruled.play [.populate, .evaluate] (.start ruled session) = (.ok (), st) →
          ruled.FailsUntold session (.configuration (.severalObjectives w))) ∧
      (ruled.evaluator.Wide plan.target.bounds.dim 1 →
        (∀ q, plan.population = some q → q.width = 1) → ∀ st,
        ruled.play [.populate, .evaluate, .fold, .prepare] (.start ruled session) = (.ok (), st) →
          (Event.startPolicy.perform ruled st).1 = .ok ()) ∧
      ∀ n st, ruled.play (ruled.opening ++ ruled.rounds n ++ ruled.turn) (.start ruled session) =
          (.ok (), st) →
        ∃ f, st.run.view.bestF = some (.number f) ∧ Event.ask.perform ruled st =
          (.ok (), Stage.answered ruled (decide (f ≤ target), st.watch) st) := by
  intro ruled
  have planned := run_ofRequest_of_unruled asked granted
  have accepted : plan.Accepted := ⟨_, _, _, _, granted⟩
  have large : 0 < ruled.settings.popSize := Nat.zero_lt_of_lt checked.two_le_popSize
  refine ⟨fun n several found => ?_, fun few single => ?_, fun session => ⟨?_, ?_, ?_⟩⟩
  · have refused : plan.vet p = .error (.configuration (.severalObjectives n)) := by
      rcases found with declared | ⟨q, warm, width⟩
      · rw [vet, declared, Policy.checkObjectives_of_lt rule several]
        rfl
      · have agrees := (width_of_accepted accepted warm).2
        rw [vet, warm, vetPopulation, ← width, Policy.checkObjectives_of_lt rule several]
        cases declared : plan.target.nObj with
        | none =>
          rw [Policy.checkObjectives_of_le rule (by simp)]
          rfl
        | some m =>
          rw [agrees m declared, ← width, Policy.checkObjectives_of_lt rule several]
          rfl
    rw [planned, refused]
  · have passes : plan.vet p = .ok () := by
      rw [vet, Policy.checkObjectives_of_le rule few]
      cases warm : plan.population with
      | none => rfl
      | some q =>
        have one : (some (q.width : Int)) = some 1 := by rw [single q warm]; rfl
        exact Policy.checkObjectives_of_le rule (by simp [one])
    rw [planned, passes]
  · intro w several wide cold
    have shape : [.populate, .evaluate] ++ [.fold, .prepare, .startPolicy] =
      (untold : List (Event σ)) := rfl
    exact ⟨fun err st played => failsUntold_of_play shape played,
      fun st played => failsUntold_several rule large several wide cold played⟩
  · intro wide single st played
    refine starts_single rule large wide (fun q warm => ⟨?_, single q warm⟩) played
    exact even_of_accepted accepted warm
  · intro n st played
    exact asks_number rule large played

end Plan

/-- The distances to both ends, of which nobody says beforehand how many there are. -/
def openEnds : Problem Unit := { bothEnds with nObj := none }

/-- The same, with one of them kept quiet. -/
def misdeclaredEnds : Problem Unit := { bothEnds with nObj := some 1 }

def zeroReached : Policy Unit Float := ⟨.threshold 0.0, some 1000⟩

/-- A swarm of two that waits until the fitness is zero. -/
def waitingRequest (p : Problem Unit) : Request Unit :=
  { swarmRequest with
    target := .target (.problem p)
    stopping := .value (.tuple [.text "min_fit", .float 0.0]) }

def waitingPlan (p : Problem Unit) : Plan Unit :=
  { swarmPlan with target := .problem p, policy := zeroReached }

/-- The same from two points of which only one distance is known. -/
def halfKnownRequest : Request Unit :=
  { warmRequest with
    target := .target (.problem openEnds)
    stopping := .value (.tuple [.text "min_fit", .float 0.0]) }

def halfKnownPlan : Plan Unit :=
  { warmPlan with target := .problem openEnds, policy := zeroReached }

namespace Plan

theorem zeroReached_asked :
    Policy.ofSource (.value (.tuple [.text "min_fit", .float 0.0])) = .ok zeroReached := by
  have number : (0.0 : Float).isNaN = false := by decide +kernel
  have read : Value.toFloat (.float 0.0) = .ok 0.0 := rfl
  rw [Policy.ofSource_min_fit, Policy.ofThreshold, read]
  simp only [bind, Except.bind, number]
  rfl

theorem waiting_granted (p : Problem Unit) :
    (ofRequest { waitingRequest p with stopping := .ready unruled } 0).run ⟨(), #[]⟩ =
      (.ok { waitingPlan p with policy := unruled }, ⟨(), #[]⟩) :=
  rfl

theorem openEnds_total : openEnds.Total bothEndsOf 1 2 :=
  ⟨nofun, fun _ _ => ⟨_, _, rfl, rfl⟩⟩

theorem openEnds_wide :
    Evaluator.Wide 1 2 ((Backend.serial : Backend Unit).evaluate (.problem openEnds)) :=
  have answers : openEnds.Answers bothEndsOf := fun _ _ => rfl
  (Backend.total_of_inChunks answers openEnds_total (Backend.serial_inChunks answers)).wide

/-- Two distances are one too many. They are refused at once if they are declared, and otherwise
when the first evaluation has shown them. -/
theorem threshold_meets_numbers_ends :
    (ofRequest (waitingRequest bothEnds) 0).run ⟨(), #[]⟩ =
      (.error (.configuration (.severalObjectives 2)), ⟨(), #[]⟩) ∧
    (ofRequest (waitingRequest openEnds) 0).run ⟨(), #[]⟩ =
      (.ok (waitingPlan openEnds), ⟨(), #[]⟩) ∧
    (waitingPlan openEnds).FailsUntold ⟨(), #[]⟩ (.configuration (.severalObjectives 2)) := by
  have settle (p : Problem Unit) := threshold_meets_numbers (r := waitingRequest p)
    (waiting_granted p) ⟨[("pop_size", .int 2)], rfl⟩ zeroReached_asked rfl
  obtain ⟨refused, -⟩ := settle bothEnds
  obtain ⟨-, passes, runs⟩ := settle openEnds
  obtain ⟨several, -⟩ := runs ⟨(), #[]⟩
  obtain ⟨-, fails⟩ := several 2 (by decide) openEnds_wide rfl
  have evaluates : ((waitingPlan openEnds).play [.populate, .evaluate]
      (.start (waitingPlan openEnds) ⟨(), #[]⟩)).1.toBool = true := by decide +kernel
  refine ⟨refused 2 (by decide) (.inl rfl), passes nofun nofun, ?_⟩
  cases played : (waitingPlan openEnds).play [.populate, .evaluate]
      (.start (waitingPlan openEnds) ⟨(), #[]⟩) with
  | mk r st =>
    rw [played] at evaluates
    cases r with
    | error err => cases evaluates
    | ok _ => exact fails st played

theorem halfKnown_accepted :
    (ofRequest halfKnownRequest 0).run ⟨(), #[]⟩ = (.ok halfKnownPlan, ⟨(), #[]⟩) := by
  have read : populationOf halfKnownRequest.population false halfKnownPlan.settings
      halfKnownPlan.target unruled = .ok (some warmStart) := by
    change (Population.check ⟨[2, 1], #[0.5, 0.25]⟩ ⟨[2], #[0.25, 0.0625]⟩ 2
      squares.bounds none >>= _) = _
    rw [warmStart_checked]
    rfl
  have whole : (ofRequest { halfKnownRequest with stopping := .ready unruled } 0).run ⟨(), #[]⟩ =
      (ofRequest.ofExcept (populationOf halfKnownRequest.population false halfKnownPlan.settings
        halfKnownPlan.target unruled) >>= fun population =>
          pure { halfKnownPlan with policy := unruled, population }).run ⟨(), #[]⟩ := rfl
  have granted : (ofRequest { halfKnownRequest with stopping := .ready unruled } 0).run ⟨(), #[]⟩ =
      (.ok { halfKnownPlan with policy := unruled }, ⟨(), #[]⟩) := by
    rw [whole, read]
    rfl
  have passes : Plan.vet { halfKnownPlan with policy := unruled } zeroReached = .ok () := rfl
  have planned := run_ofRequest_of_unruled (r := halfKnownRequest) zeroReached_asked granted
  rw [planned, passes]
  rfl

/-- What a request says of the number of objectives is taken at its word. From a population that
knows one distance of two a run is not refused before it begins. And if one is declared then the
first evaluation fails for the second one, which is not for the policy to say. -/
theorem claimed_objectives_trusted :
    ((ofRequest halfKnownRequest 0).run ⟨(), #[]⟩ = (.ok halfKnownPlan, ⟨(), #[]⟩) ∧
      halfKnownPlan.policy.rule = .threshold 0.0 ∧ halfKnownPlan.evaluator.Wide 1 2 ∧
      ∀ err, ¬halfKnownPlan.FailsUntold ⟨(), #[]⟩ err) ∧
    (ofRequest (waitingRequest misdeclaredEnds) 0).run ⟨(), #[]⟩ =
      (.ok (waitingPlan misdeclaredEnds), ⟨(), #[]⟩) ∧
    ∃ err, (waitingPlan misdeclaredEnds).FailsUntold ⟨(), #[]⟩ err ∧ err.isEvaluation = true := by
  refine ⟨⟨halfKnown_accepted, rfl, openEnds_wide, ?_⟩, ?_, ?_⟩
  · rintro err ⟨before, e, after, st, st', shape, passed, failed, -⟩
    have starts : (halfKnownPlan.play untold (.start halfKnownPlan ⟨(), #[]⟩)).1.toBool = true := by
      decide +kernel
    rw [← shape, play_append, passed] at starts
    dsimp only at starts
    rw [play, failed] at starts
    cases starts
  · have passes : Plan.vet { waitingPlan misdeclaredEnds with policy := unruled } zeroReached =
        .ok () := rfl
    have planned := run_ofRequest_of_unruled (r := waitingRequest misdeclaredEnds)
      zeroReached_asked (waiting_granted misdeclaredEnds)
    rw [planned, passes]
    rfl
  · have shape : [.populate, .evaluate] ++ [.fold, .prepare, .startPolicy] =
      (untold : List (Event Unit)) := rfl
    have fails : ((waitingPlan misdeclaredEnds).play [.populate, .evaluate]
        (.start (waitingPlan misdeclaredEnds) ⟨(), #[]⟩)).1.mapError Error.isEvaluation =
      .error true := by decide +kernel
    cases played : (waitingPlan misdeclaredEnds).play [.populate, .evaluate]
        (.start (waitingPlan misdeclaredEnds) ⟨(), #[]⟩) with
    | mk r st =>
      rw [played] at fails
      cases r with
      | ok _ => cases fails
      | error err => exact ⟨err, failsUntold_of_play shape played, Except.error.inj fails⟩

end Plan

end BoxSearch
