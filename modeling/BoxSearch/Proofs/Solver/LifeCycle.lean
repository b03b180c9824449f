import BoxSearch.Proofs.Solver.Budget
import BoxSearch.Proofs.Solver.Course

/-!
The life cycle of a solver.

A solver can be asked to solve and for its result, any number of times and in any order. Only the
first request to solve has an effect. It leads to a result if the plan cannot fail on its own, its
policy has a bound, and nobody is called who could interfere.
-/

namespace BoxSearch

open Solving

variable {σ : Type}

namespace Plan

section Undisturbed

variable {plan : Plan σ} {st : Stage σ} {p : Problem σ} {g : Row Float → Except Raised Value}
  {n d w : Nat}

/-- Nobody but the objective is called in a run, and its policy has no rule. -/
structure Undisturbed (plan : Plan σ) : Prop where
  callback : plan.callback = none
  record : plan.record = none
  observers : plan.observers = []
  rule : plan.policy.rule = .never

theorem Undisturbed.summarizes (undisturbed : plan.Undisturbed) (st : Stage σ)
    (underway : st.run.Underway n d w) :
    ∃ snap session, Event.summarize.perform plan st =
      (.ok (), Stage.summed snap { st with session }) := by
  obtain ⟨F, fitness, -⟩ := underway.fitness_eq
  obtain ⟨-, f, bestF⟩ := Run.exists_best underway.hasBest
  rw [Event.perform, snapshot, fitness, bestF, undisturbed.record]
  exact ⟨_, _, rfl⟩

theorem Undisturbed.asks (undisturbed : plan.Undisturbed) (st : Stage σ) :
    Event.ask.perform plan st = (.ok (), Stage.answered plan (false, st.watch) st) := by
  rw [Event.perform, Policy.ruleHolds, undisturbed.rule]
  rfl

/-- A result can be made of a run with a best point. -/
theorem exists_result (plan : Plan σ) {run : Run Float Value} (underway : run.Underway n d w)
    (history : List (Snapshot (Best Float))) : ∃ result, plan.resultOf run history = .ok result := by
  obtain ⟨⟨x, bestX⟩, f, bestF⟩ := Run.exists_best underway.hasBest
  obtain ⟨product, bestProduct⟩ := Run.exists_bestProduct bestX
  rw [resultOf, bestF, bestX, bestProduct]
  exact ⟨_, rfl⟩

/-- A round passes, and the next one can follow. -/
theorem Steady.passes_round (steady : plan.Steady p g w) (undisturbed : plan.Undisturbed)
    (underway : st.run.Underway plan.settings.popSize p.bounds.dim w) :
    ∃ st', plan.play plan.round st = (.ok (), st') ∧
      st'.run.Underway plan.settings.popSize p.bounds.dim w := by
  have shape : plan.round = [.step, .evaluate, .fold, .complete] ++ [.summarize, .ask] := by
    simp [round, turn, undisturbed.callback, undisturbed.observers]
  obtain ⟨_, ⟨run, session⟩, completed, after⟩ := Search.exists_of_ends
    (steady.proceeds (s := (st.run, st.session)) underway)
  have advanced : plan.play [.step, .evaluate, .fold, .complete] st =
      (.ok (), { st with run, session }) := by
    rw [play_advance, Stage.search, completed]
  obtain ⟨snap, _, summed⟩ := undisturbed.summarizes { st with run, session } after
  rw [shape, play_append, advanced]
  simp only [play, summed, undisturbed.asks]
  exact ⟨_, rfl, after⟩

theorem Steady.passes_rounds (steady : plan.Steady p g w) (undisturbed : plan.Undisturbed)
    (underway : st.run.Underway plan.settings.popSize p.bounds.dim w) (count : Nat) :
    ∃ st', plan.play (plan.rounds count) st = (.ok (), st') ∧
      st'.run.Underway plan.settings.popSize p.bounds.dim w := by
  induction count generalizing st with
  | zero => exact ⟨st, rfl, underway⟩
  | succ count ih =>
    obtain ⟨mid, passed, between⟩ := steady.passes_round undisturbed underway
    obtain ⟨st', rest, after⟩ := ih between
    rw [rounds_succ, play_append, passed]
    exact ⟨st', rest, after⟩

/-- A run that was opened gets through any number of generations, and to a result. -/
theorem Steady.passes_schedule (steady : plan.Steady p g w) (undisturbed : plan.Undisturbed)
    {session : Session σ} (opened : plan.play plan.opening (.start plan session) = (.ok (), st))
    (count : Nat) :
    ∃ st', plan.play (plan.schedule count) (.start plan session) = (.ok (), st') := by
  obtain ⟨⟨run, s, t, t', begun, prepared⟩, -⟩ := of_play_opening opened
  obtain ⟨ledger, chronicled⟩ := (Reached.ready begun prepared).chronicled
  obtain ⟨mid, passed, underway⟩ :=
    steady.passes_rounds undisturbed (steady.counted chronicled).underway count
  obtain ⟨result, made⟩ := plan.exists_result underway mid.history.toList
  rw [schedule, List.append_assoc, play_append, opened]
  dsimp only
  rw [play_append, passed]
  simp only [play, perform_report made]
  exact ⟨_, rfl⟩

/-- A solver whose run can be opened, and whose policy has a bound, answers with a result. -/
theorem Steady.solves {m : Nat} (steady : plan.Steady p g w) (undisturbed : plan.Undisturbed)
    (bounded : plan.policy.maxGenerations = some m) (positive : 1 ≤ m) {session : Session σ}
    (opened : plan.play plan.opening (.start plan session) = (.ok (), st)) :
    ∃ result, (plan.solve.run (.fresh, session)).1 = .ok result := by
  obtain ⟨answer, solver, session', solves, course⟩ := plan.solve_course session
  rw [solves]
  cases course with
  | @finished _ _ _ result _ _ _ _ _ _ closed =>
    rw [closing, undisturbed.observers] at closed
    cases closed
    exact ⟨result, rfl⟩
  | @failed k _ _ _ _ _ _ _ scheduled passed failed =>
    obtain ⟨_, whole⟩ := steady.passes_schedule undisturbed opened (k + 1)
    rw [← scheduled, play_append, passed] at whole
    simp only [play, failed] at whole
    cases whole
  | endless boundless =>
    have none := boundless m bounded
    omega

end Undisturbed

section Uses

variable {plan : Plan σ}

/-- What can be asked of a solver. -/
inductive Use where
  | solve
  | read

def Use.ask (plan : Plan σ) : Use → Solving σ (Result (Best Float))
  | solve => plan.solve
  | read => do Solving.ofExcept (← current).outcome

/-- The answers to several uses, one after another. Whoever uses a solver goes on after a failure. -/
def useAll (plan : Plan σ) : List Use → Solver × Session σ →
    List (Except Error (Result (Best Float))) × Solver × Session σ
  | [], s => ([], s)
  | use :: uses, s =>
    let (answer, s) := (use.ask plan).run s
    let (answers, s) := plan.useAll uses s
    (answer :: answers, s)

/-- What a solver answers that was asked to solve before. -/
def Use.reply (solver : Solver) : Use → Except Error (Result (Best Float))
  | solve => .error (.lifecycle (.alreadySolved solver.phase))
  | read => solver.outcome

theorem ask_read (s : Solver × Session σ) : (Use.read.ask plan).run s = (s.1.outcome, s) := by
  have shape : (Use.read.ask plan).run s = (Solving.ofExcept s.1.outcome : Solving σ _).run s := rfl
  rw [shape]
  cases s.1.outcome <;> rfl

/-- A solver that was asked to solve only repeats itself. -/
theorem ask_used (use : Use) {s : Solver × Session σ} (used : s.1.phase ≠ .uninitialized) :
    (use.ask plan).run s = (use.reply s.1, s) := by
  cases use with
  | read => exact ask_read s
  | solve =>
    have again : (s.1.phase != .uninitialized) = true := by
      cases phase : s.1.phase with
      | uninitialized => exact absurd phase used
      | _ => rfl
    have current : (current : Solving σ Solver).run s = (.ok s.1, s) := rfl
    rw [Use.ask, solve, run_bind, current]
    simp only [again, if_true]
    rfl

theorem useAll_used (uses : List Use) {s : Solver × Session σ} (used : s.1.phase ≠ .uninitialized) :
    plan.useAll uses s = (uses.map (Use.reply s.1), s) := by
  induction uses with
  | nil => rfl
  | cons use uses ih => simp only [useAll, ask_used use used, ih, List.map_cons]

/-- Whatever a solver is used for, in whatever order: reading fails until it has been asked to solve,
and leaves it fresh. The first time that it is asked to solve it goes through the events of its
schedule, to the end or to the first that fails. From then on nothing changes, every further attempt
is refused, and the result can be read if and only if there is one. -/
theorem solver_life_cycle (plan : Plan σ) (session : Session σ) : ∃ answer solver session',
    plan.Course session answer solver session' ∧
    ∀ uses : List Use,
      (.solve ∉ uses → plan.useAll uses (.fresh, session) =
        (uses.map fun _ => .error (.lifecycle (.noResult .uninitialized)), (.fresh, session))) ∧
      ∀ reads later, uses = reads ++ .solve :: later → .solve ∉ reads →
        plan.useAll uses (.fresh, session) =
          ((reads.map fun _ => .error (.lifecycle (.noResult .uninitialized))) ++
            answer :: later.map (Use.reply solver), (solver, session')) := by
  obtain ⟨answer, solver, session', solves, course⟩ := plan.solve_course session
  have used : solver.phase ≠ .uninitialized := by
    rcases course.outcome with ⟨phase, -⟩ | ⟨phase, -⟩ <;> rw [phase] <;> exact nofun
  have reading (reads later : List Use) (only : .solve ∉ reads) :
      plan.useAll (reads ++ later) (.fresh, session) =
        ((reads.map fun _ => .error (.lifecycle (.noResult .uninitialized))) ++
          (plan.useAll later (.fresh, session)).1, (plan.useAll later (.fresh, session)).2) := by
    induction reads with
    | nil => rfl
    | cons use reads ih =>
      cases use with
      | solve => exact absurd List.mem_cons_self only
      | read =>
        have rest := ih fun h => only (List.mem_cons_of_mem _ h)
        simp only [List.cons_append, useAll, ask_read, rest, List.map_cons]
        rfl
  refine ⟨answer, solver, session', course, fun uses => ⟨fun only => ?_, ?_⟩⟩
  · have all := reading uses [] only
    simpa [useAll] using all
  · rintro reads later rfl only
    rw [reading reads _ only]
    have solved : (Use.solve.ask plan).run (.fresh, session) = (answer, (solver, session')) := solves
    have rest : plan.useAll later (solver, session') = (later.map (Use.reply solver), (solver, session')) :=
      useAll_used later used
    simp only [useAll, solved, rest]

end Uses

end Plan

/-- Three fireflies with three generations to go. -/
def threeRoundsPlan : Plan Unit :=
  { fireflyPlan with policy := ⟨.never, some 3⟩ }

namespace Plan

theorem threeRoundsPlan_steady : threeRoundsPlan.Steady bothEnds bothEndsOf 2 :=
  { fireflyPlan_steady with }

/-- They get to a result, whatever the stream of random numbers is. -/
theorem threeRoundsPlan_solves :
    ∃ result, (threeRoundsPlan.solve.run (.fresh, ⟨(), #[]⟩)).1 = .ok result := by
  have opens : (threeRoundsPlan.play threeRoundsPlan.opening
      (.start threeRoundsPlan ⟨(), #[]⟩)).1.toBool = true := by decide +kernel
  exact threeRoundsPlan_steady.solves ⟨rfl, rfl, rfl, rfl⟩ rfl (by decide)
    (run_eq_ok (m := threeRoundsPlan.play threeRoundsPlan.opening) opens)

/-- Their result is there once they were asked to solve, and stays. -/
theorem solver_life_cycle_threeRounds : ∃ result solver session',
    threeRoundsPlan.useAll [.read, .solve, .solve, .read] (.fresh, ⟨(), #[]⟩) =
      ([.error (.lifecycle (.noResult .uninitialized)), .ok result,
        .error (.lifecycle (.alreadySolved .resultAvailable)), .ok result],
        (solver, session')) := by
  obtain ⟨result, solved⟩ := threeRoundsPlan_solves
  obtain ⟨answer, solver, session', course, uses⟩ := solver_life_cycle threeRoundsPlan ⟨(), #[]⟩
  have once := (uses [.solve]).2 [] [] rfl (by simp)
  have answered : some (.ok result) = some answer := by
    rw [← solved]
    exact congrArg (fun replies => replies.1.head?) once
  cases answered
  obtain ⟨phase, outcome⟩ := course.outcome_of_ok
  have all := (uses [.read, .solve, .solve, .read]).2 [.read] [.solve, .read] rfl (by simp)
  refine ⟨result, solver, session', ?_⟩
  simpa [Use.reply, phase, outcome] using all

end Plan

end BoxSearch
