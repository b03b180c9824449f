import BoxSearch.Proofs.Solver.Agreement
import BoxSearch.Proofs.Solver.Enacting
import BoxSearch.Proofs.Solver.Rounds

/-!
What becomes of a solver that is asked to solve.

The events of a schedule happen one by one, as many generations as the policy asks for. Either all
of them pass, and the result is there, or one of them fails and ends the run.
-/

namespace BoxSearch

open Solving

variable {σ : Type}

namespace Plan

variable {plan : Plan σ} {solver : Solver} {st : Stage σ} {watch : Watch Float}
  {verdicts : List Bool}

/-- Everything up to the first generation. -/
def ready (plan : Plan σ) : Solving σ (Run Float Value × Watch Float) := do
  let begun ← onRun plan.start plan.begin
  enter .initialized
  let prepared ← onRun begun.2 (Strategy.prepare plan.settings)
  let watch ← act do
    let watch ← plan.policy.start plan.clock prepared.2.view
    Act.log (plan.startEvent prepared.2)
    return watch
  plan.observers.forM fun o => act (o.onStart (plan.info prepared.2))
  enter .running
  return (prepared.2, watch)

/-- Everything after the last generation. -/
def finish (plan : Plan σ) (run : Run Float Value) :
    Solving σ (Run Float Value × Result (Best Float)) := do
  enter .terminated
  let result ← Solving.ofExcept (plan.resultOf run (← current).history.toList)
  return (run, result)

theorem attempt_eq (plan : Plan σ) : plan.attempt = (do
    let ready ← plan.ready
    let run ← plan.loop plan.fuel ready.1 ready.2
    plan.finish run) := by
  unfold attempt ready finish
  simp only [bind_assoc, act_bind, pure_bind]
  rfl

theorem run_finish (run : Run Float Value) (s : Solver × Session σ) :
    (plan.finish run).run s = ((plan.resultOf run s.1.history.toList).map (run, ·),
      ({ s.1 with phase := .terminated }, s.2)) := by
  have shape : (plan.finish run).run s = (Solving.ofExcept (plan.resultOf run s.1.history.toList) >>=
      fun result => pure (run, result) : Solving σ _).run
        ({ s.1 with phase := .terminated }, s.2) := rfl
  rw [shape, run_bind]
  cases plan.resultOf run s.1.history.toList <;> rfl

theorem enacts_ready (keeps : Keeps solver st) (holds : st.At plan.start watch verdicts) :
    plan.Enacts plan.ready plan.opening solver st fun b st' => st'.At b.1 b.2 verdicts := by
  have shape : plan.opening = [.populate, .evaluate, .fold] ++ ([] ++ ([.prepare] ++
      ([.startPolicy] ++ (plan.observers.map .tellStart ++ ([] ++ []))))) := by
    simp [opening]
  rw [shape, ready]
  apply enacts_bind (enacts_onRun (play_begin st) keeps holds)
  intro begun solver st keeps holds
  apply enacts_bind (enacts_enter _ keeps holds)
  intro _ solver st keeps holds
  apply enacts_bind (enacts_onRun (play_single_search (fun _ => rfl) st) keeps holds)
  rintro ⟨_, run⟩ solver st keeps ⟨rfl, rfl, rfl⟩
  have starts : plan.Enacts (Solving.act _) [.startPolicy] solver st fun watch st' =>
      st'.At st.run watch st.verdicts :=
    enacts_act rfl (fun _ _ => ⟨rfl, rfl⟩) keeps fun _ _ => ⟨rfl, rfl, rfl⟩
  apply enacts_bind starts
  intro watch solver st' keeps holds
  have told : ∀ o ∈ plan.observers, ∀ st' : Stage σ, st'.run = st.run →
      (Event.tellStart o).perform plan st' =
        st'.act (o.onStart (plan.info st.run)) fun _ => id := by
    intro o _ st' same
    rw [Event.perform, same]
  apply enacts_bind (enacts_forM _ told keeps holds)
  intro _ solver st' keeps holds
  apply enacts_bind (enacts_enter _ keeps holds)
  intro _ solver st' keeps holds
  exact enacts_pure keeps holds

/-- An event that fails adds no verdict. -/
theorem verdicts_of_error {e : Event σ} {st st' : Stage σ} {err : Error}
    (h : e.perform plan st = (.error err, st')) : st'.verdicts = st.verdicts := by
  by_cases asks : e = .ask
  · subst asks
    exact verdicts_of_ask_error h
  · have same : (e.perform plan st).2.verdicts = st.verdicts :=
      perform_same (·.verdicts) e st (fun _ _ _ _ _ => rfl) (fun h => absurd h asks)
        fun _ _ _ => rfl
    rwa [h] at same

/-- How the attempt at a run ends: with a result after the first verdict to stop, or with the
failure of an event, or, without any bound, not at all. -/
inductive Attempted (plan : Plan σ) (session : Session σ) :
    Except Error (Run Float Value × Result (Best Float)) → Stage σ → Prop
  | made {g : Nat} {st : Stage σ} {result : Result (Best Float)} (within : g < plan.fuel)
    (played : plan.play (plan.opening ++ plan.rounds (g + 1)) (.start plan session) = (.ok (), st))
    (verdicts : st.verdicts = List.replicate g false ++ [true])
    (made : plan.resultOf st.run st.history.toList = .ok result) :
    Attempted plan session (.ok (st.run, result)) st
  | failed {g : Nat} {before after : List (Event σ)} {e : Event σ} {st st' : Stage σ} {err : Error}
    (within : g ≤ plan.fuel - 1) (scheduled : before ++ e :: after = plan.schedule (g + 1))
    (passed : plan.play before (.start plan session) = (.ok (), st))
    (failed : e.perform plan st = (.error err, st'))
    (verdicts : st.verdicts <+: List.replicate g false ++ [true]) :
    Attempted plan session (.error err) st'
  | endless {st : Stage σ} (boundless : ∀ m, plan.policy.maxGenerations = some m → m = 0)
    (played : plan.play (plan.opening ++ plan.rounds plan.fuel) (.start plan session) = (.ok (), st))
    (verdicts : st.verdicts = List.replicate plan.fuel false) :
    Attempted plan session (.error (.fault .unfinished)) st

/-- The first events of a schedule fail. -/
theorem attempted_of_error {session : Session σ} {g : Nat} {first rest : List (Event σ)}
    {st' : Stage σ} {err : Error} (within : g ≤ plan.fuel - 1)
    (scheduled : first ++ rest = plan.schedule (g + 1))
    (played : plan.play first (.start plan session) = (.error err, st'))
    (verdicts : st'.verdicts <+: List.replicate g false ++ [true]) :
    plan.Attempted session (.error err) st' := by
  obtain ⟨before, e, after, st, rfl, passed, failed⟩ := of_play_error played
  rw [verdicts_of_error failed] at verdicts
  rw [List.append_assoc, List.cons_append] at scheduled
  exact .failed within scheduled passed failed verdicts

/-- With a bound the rounds do not go on for as long as they could. -/
theorem attempted_of_unfinished {session : Session σ} {st₀ : Stage σ}
    (opened : plan.play plan.opening (.start plan session) = (.ok (), st₀))
    (played : plan.play (plan.rounds plan.fuel) st₀ = (.ok (), st))
    (verdicts : st.verdicts = List.replicate plan.fuel false) :
    plan.Attempted session (.error (.fault .unfinished)) st := by
  have whole : plan.play (plan.opening ++ plan.rounds plan.fuel) (.start plan session) =
      (.ok (), st) := by
    rw [play_append, opened]
    exact played
  refine .endless (fun m bounded => ?_) whole verdicts
  have fuel : plan.fuel = m := by rw [fuel, bounded, Option.getD_some]
  rw [fuel] at played verdicts
  have after := (after_opening opened).rounds played
  rw [Nat.zero_add] at after
  by_contra positive
  exact stops_in_time bounded (Nat.pos_of_ne_zero positive) after verdicts

/-- After the last round there is a result, or the report of one fails. -/
theorem attempted_of_stopped {session : Session σ} {g : Nat} (keeps : Keeps solver st)
    (within : g < plan.fuel)
    (played : plan.play (plan.opening ++ plan.rounds (g + 1)) (.start plan session) = (.ok (), st))
    (verdicts : st.verdicts = List.replicate g false ++ [true]) : ∃ r solver',
      (plan.finish st.run).run (solver, st.session) = (r, (solver', st.session)) ∧
        Keeps solver' st ∧ plan.Attempted session r st := by
  refine ⟨_, _, run_finish st.run _, ⟨keeps.history, keeps.result, keeps.releases⟩, ?_⟩
  rw [keeps.history]
  cases made : plan.resultOf st.run st.history.toList with
  | ok result => exact .made within played verdicts made
  | error err =>
    have fails : Event.report.perform plan st = (.error err, st) := by
      rw [Event.perform, Stage.act, run_bind, made]
      rfl
    exact .failed (Nat.le_sub_one_of_lt within) rfl played fails (verdicts ▸ List.prefix_rfl)

theorem attempt_attempted (plan : Plan σ) (session : Session σ) : ∃ r st solver',
      plan.attempt.run (.fresh, session) = (r, (solver', st.session)) ∧ Keeps solver' st ∧
        plan.Attempted session r st := by
  have starts : plan.Enacts plan.ready plan.opening .fresh (.start plan session)
      fun b st' => st'.At b.1 b.2 [] :=
    enacts_ready ⟨rfl, rfl, rfl⟩ ⟨rfl, rfl, rfl⟩
  have silent : (plan.play plan.opening (.start plan session)).2.verdicts = [] :=
    play_verdicts plan.ask_not_mem_opening _
  unfold Enacts at starts
  rw [attempt_eq, run_bind]
  cases opened : plan.play plan.opening (.start plan session) with
  | mk r st₀ =>
    rw [opened] at starts silent
    cases r with
    | error err =>
      obtain ⟨solver', ran, keeps⟩ := starts
      have ran : plan.ready.run (.fresh, session) = (.error err, (solver', st₀.session)) := ran
      refine ⟨.error err, st₀, solver', by rw [ran], keeps, ?_⟩
      apply attempted_of_error (g := 0) (Nat.zero_le _) (List.append_assoc _ _ _).symm opened
      rw [silent]
      exact List.nil_prefix
    | ok _ =>
      obtain ⟨⟨run, watch⟩, solver₀, ran, keeps₀, holds₀⟩ := starts
      have ran : plan.ready.run (.fresh, session) =
        (.ok (run, watch), (solver₀, st₀.session)) := ran
      have holds₀ : st₀.At run watch [] := holds₀
      obtain ⟨r, st, solver', looped, keeps, ends⟩ := loop_ends plan plan.fuel keeps₀ holds₀
      have before (n : Nat) : plan.play (plan.opening ++ plan.rounds n) (.start plan session) =
          plan.play (plan.rounds n) st₀ := by
        rw [play_append, opened]
      simp only [ran, run_bind, looped]
      cases ends with
      | failed within played verdicts =>
        refine ⟨_, st, solver', rfl, keeps, ?_⟩
        apply attempted_of_error (Nat.le_sub_one_of_lt within) rfl ((before _).trans played)
        rw [verdicts, silent]
        exact List.prefix_append _ _
      | unfinished played verdicts =>
        rw [silent, List.nil_append] at verdicts
        exact ⟨_, st, solver', rfl, keeps, attempted_of_unfinished opened played verdicts⟩
      | stopped within played verdicts =>
        rw [silent] at verdicts
        obtain ⟨r, solver'', finished, kept, attempted⟩ :=
          attempted_of_stopped keeps within ((before _).trans played) verdicts
        exact ⟨r, st, solver'', finished, kept, attempted⟩

/-- How often a backend is given back. -/
def dues (plan : Plan σ) : Nat :=
  if plan.owns then 1 else 0

theorem run_release (s : Solver × Session σ) :
    plan.release.run s = (.ok (), ({ s.1 with releases := s.1.releases + plan.dues }, s.2)) := by
  unfold release dues
  split <;> rfl

theorem run_solve (session : Session σ) :
    plan.solve.run (.fresh, session) = match plan.attempt.run (.fresh, session) with
      | (.error e, (solver, session)) =>
        (.error e, ({ solver with phase := .terminated, releases := solver.releases + plan.dues },
          { session with log := session.log.push (.aborted solver.history.size) }))
      | (.ok (run, result), (solver, session)) =>
        (plan.conclude run result).run
          ({ solver with releases := solver.releases + plan.dues }, session) := by
  unfold solve
  rw [run_bind]
  change (Solving.attempt plan.attempt >>= _).run (.fresh, session) = _
  rw [Solving.attempt_run]
  cases plan.attempt.run (.fresh, session) with
  | mk r after =>
    obtain ⟨solver, session⟩ := after
    cases r with
    | ok made => simp only [run_bind, run_release]
    | error e =>
      simp only [run_bind, run_release]
      rfl

theorem run_announce (run : Run Float Value) (result : Result (Best Float)) (s : Session σ) :
    (plan.announce run result).run s = (.ok (), ((plan.announce run result).run s).2) := by
  unfold announce
  split <;> rfl

theorem run_tellEnd {result : Result (Best Float)} (observers : List (Observer σ)) (solver : Solver)
    {st : Stage σ} (reported : st.result = some result) :
    (observers.forM fun o => act (o.onEnd result.generations result.nEval)).run
        (solver, st.session) =
      ((plan.play (observers.map .tellEnd) st).1,
        (solver, (plan.play (observers.map .tellEnd) st).2.session)) := by
  induction observers generalizing st with
  | nil => rfl
  | cons o observers ih =>
    change (act (o.onEnd result.generations result.nEval) >>= fun _ => _).run _ = _
    rw [run_bind, run_act, List.map_cons, play, Event.perform, reported]
    simp only [Stage.act]
    cases (o.onEnd result.generations result.nEval).run st.session with
    | mk r session =>
      cases r with
      | ok _ => exact @ih { st with session } reported
      | error e => rfl

/-- Whoever is told of the end is told after the result was announced. -/
theorem run_conclude {run : Run Float Value} {result : Result (Best Float)} (solver : Solver)
    {session : Session σ} (st : Stage σ)
    (announced : st.session = ((plan.announce run result).run session).2)
    (reported : st.result = some result) :
    (plan.conclude run result).run (solver, session) =
      ((plan.play plan.closing st).1.map fun _ => result,
        ({ solver with result := some result, phase := .resultAvailable },
          (plan.play plan.closing st).2.session)) := by
  have announces : (plan.conclude run result).run (solver, session) = (do
      plan.observers.forM fun o => act (o.onEnd result.generations result.nEval)
      return result : Solving σ (Result (Best Float))).run
        ({ solver with result := some result, phase := .resultAvailable }, st.session) := by
    rw [announced]
    unfold conclude announce
    split <;> rfl
  rw [announces, run_bind, run_tellEnd plan.observers _ reported, closing]
  cases plan.play (plan.observers.map .tellEnd) st with
  | mk r last => cases r <;> rfl

/-- What becomes of a fresh solver that is asked to solve, and of the session, with the answer. Three
things can happen.

All events of a schedule pass. The last verdict of the policy was the first to stop, the result is
there, and whoever is told of the end may still fail.

An event of a schedule fails after all before it have passed, and nothing happens any more. No
verdict was to stop unless it was the last one of the schedule. The history has as many summaries as
have been completed.

Or no verdict was ever to stop, which takes a policy without a bound. -/
inductive Course (plan : Plan σ) (session : Session σ) :
    Except Error (Result (Best Float)) → Solver → Session σ → Prop
  | finished {g : Nat} {st st' : Stage σ} {result : Result (Best Float)}
    {told : Except Error Unit} (within : g < plan.fuel)
    (played : plan.play (plan.schedule (g + 1)) (.start plan session) = (.ok (), st))
    (verdicts : st.verdicts = List.replicate g false ++ [true])
    (size : st.history.size = g + 1) (reported : st.result = some result)
    (closed : plan.play plan.closing st = (told, st')) :
    Course plan session (told.map fun _ => result)
      ⟨.resultAvailable, st.history, some result, plan.dues⟩ st'.session
  | failed {g : Nat} {before after : List (Event σ)} {e : Event σ} {st st' : Stage σ} {err : Error}
    (within : g ≤ plan.fuel - 1) (scheduled : before ++ e :: after = plan.schedule (g + 1))
    (passed : plan.play before (.start plan session) = (.ok (), st))
    (failed : e.perform plan st = (.error err, st'))
    (verdicts : st.verdicts <+: List.replicate g false ++ [true])
    (size : st'.history.size = before.countP Event.isSummary) :
    Course plan session (.error err) ⟨.terminated, st'.history, none, plan.dues⟩
      { st'.session with log := st'.session.log.push (.aborted st'.history.size) }
  | endless {st : Stage σ} (boundless : ∀ m, plan.policy.maxGenerations = some m → m = 0)
    (played : plan.play (plan.opening ++ plan.rounds plan.fuel) (.start plan session) = (.ok (), st))
    (verdicts : st.verdicts = List.replicate plan.fuel false) :
    Course plan session (.error (.fault .unfinished))
      ⟨.terminated, st.history, none, plan.dues⟩
      { st.session with log := st.session.log.push (.aborted st.history.size) }

/-- The stage after its result was made and announced. -/
def Stage.announced (plan : Plan σ) (result : Result (Best Float)) (st : Stage σ) : Stage σ :=
  { st with
    session := ((plan.announce st.run result).run st.session).2
    result := some result }

theorem perform_report {st : Stage σ} {result : Result (Best Float)}
    (made : plan.resultOf st.run st.history.toList = .ok result) :
    Event.report.perform plan st = (.ok (), st.announced plan result) := by
  have ran : (do
      let result ← MonadExcept.ofExcept (plan.resultOf st.run st.history.toList)
      plan.announce st.run result
      return result : Act σ (Result (Best Float))).run st.session =
        (.ok result, ((plan.announce st.run result).run st.session).2) := by
    rw [run_bind, made]
    change (plan.announce st.run result >>= fun _ => pure result).run st.session = _
    rw [run_bind, run_announce]
    rfl
  rw [Event.perform, Stage.act, ran]
  rfl

/-- A run whose result is made goes on to its end. -/
theorem course_of_made {session : Session σ} {g : Nat} {st : Stage σ} {result : Result (Best Float)}
    (phase : Phase) (within : g < plan.fuel)
    (played : plan.play (plan.opening ++ plan.rounds (g + 1)) (.start plan session) = (.ok (), st))
    (verdicts : st.verdicts = List.replicate g false ++ [true])
    (made : plan.resultOf st.run st.history.toList = .ok result) : ∃ answer solver session',
      (plan.conclude st.run result).run (⟨phase, st.history, none, plan.dues⟩, st.session) =
        (answer, (solver, session')) ∧ plan.Course session answer solver session' := by
  obtain ⟨opened, first, rest⟩ := of_play_append played
  have size := ((after_opening first).rounds rest).size
  rw [Nat.zero_add] at size
  have scheduled : plan.play (plan.schedule (g + 1)) (.start plan session) =
      (.ok (), st.announced plan result) := by
    rw [schedule, play_append, played]
    simp only [play, perform_report made]
  refine ⟨_, _, _, run_conclude _ (st.announced plan result) rfl rfl, ?_⟩
  have kept : (st.announced plan result).verdicts = st.verdicts ∧
      (st.announced plan result).history = st.history := ⟨rfl, rfl⟩
  rw [← kept.1] at verdicts
  rw [← kept.2] at size ⊢
  exact .finished within scheduled verdicts size rfl rfl

theorem solve_course (plan : Plan σ) (session : Session σ) : ∃ answer solver session',
      plan.solve.run (.fresh, session) = (answer, (solver, session')) ∧
        plan.Course session answer solver session' := by
  obtain ⟨r, st, solver, attempted, ⟨history, none, released⟩, ends⟩ :=
    plan.attempt_attempted session
  obtain ⟨phase, _, _, _⟩ := solver
  subst history none released
  rw [run_solve, attempted]
  cases ends with
  | made within played verdicts made =>
    simp only [Nat.zero_add]
    exact course_of_made phase within played verdicts made
  | failed within scheduled passed failed verdicts =>
    simp only [Nat.zero_add]
    refine ⟨_, _, _, rfl, .failed within scheduled passed failed verdicts ?_⟩
    rw [perform_history failed, play_history passed]
    simp [Stage.start, Except.isOk, Except.toBool]
  | endless boundless played verdicts =>
    simp only [Nat.zero_add]
    exact ⟨_, _, _, rfl, .endless boundless played verdicts⟩

theorem Course.outcome {session session' : Session σ} {solver : Solver}
    {answer : Except Error (Result (Best Float))}
    (course : plan.Course session answer solver session') :
    (solver.phase = .resultAvailable ∧ ∃ result, solver.outcome = .ok result) ∨
      solver.phase = .terminated ∧ solver.outcome = .error (.lifecycle (.noResult .terminated)) := by
  cases course with
  | finished => exact .inl ⟨rfl, _, rfl⟩
  | failed | endless => exact .inr ⟨rfl, rfl⟩

/-- A result that was answered is the one to be read. -/
theorem Course.outcome_of_ok {session session' : Session σ} {solver : Solver}
    {result : Result (Best Float)} (course : plan.Course session (.ok result) solver session') :
    solver.phase = .resultAvailable ∧ solver.outcome = .ok result := by
  generalize answered : (Except.ok result : Except Error (Result (Best Float))) = answer at course
  cases course with
  | @finished _ _ _ _ told =>
    cases told with
    | ok _ =>
      cases answered
      exact ⟨rfl, rfl⟩
    | error e => cases answered
  | failed | endless => cases answered

end Plan

end BoxSearch
