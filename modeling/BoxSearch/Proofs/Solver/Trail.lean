import BoxSearch.Proofs.Solver.Reached
import BoxSearch.Proofs.Solver.Stopping

/-!
What a history tells of a run.

The summaries of a history are those of one run, made after each of its generations in turn. So what
holds from one generation to the next holds from one summary to the next.
-/

namespace BoxSearch

variable {σ : Type}

namespace Plan

variable {plan : Plan σ} {history : List (Snapshot (Best Float))} {run : Run Float Value}

/-- The runs that a plan goes through, with the summaries made on the way. There is one for every
generation, of the run as that generation left it. -/
inductive Trail (plan : Plan σ) : List (Snapshot (Best Float)) → Run Float Value → Prop
  | ready {run run' : Run Float Value} {s s' t t' : Session σ}
      (begun : plan.begin.run (plan.start, s) = (.ok (), (run, s')))
      (prepared : (Strategy.prepare plan.settings).run (run, t) = (.ok (), (run', t'))) :
      Trail plan [] run'
  | next {history : List (Snapshot (Best Float))} {run run' : Run Float Value}
      {snap : Snapshot (Best Float)} {s s' t t' : Session σ} (before : Trail plan history run)
      (completed : (Strategy.generation plan.settings plan.evaluator).run (run, s) =
        (.ok (), (run', s')))
      (summed : (plan.snapshot run' run'.view).run t = (.ok snap, t')) :
      Trail plan (history ++ [snap]) run'

theorem Trail.reached (h : plan.Trail history run) : plan.Reached history.length run := by
  induction h with
  | ready begun prepared => exact .ready begun prepared
  | next _ completed _ ih =>
    rw [List.length_append]
    exact .next ih completed

theorem trail_of_opening {session : Session σ} {st : Stage σ}
    (played : plan.play plan.opening (.start plan session) = (.ok (), st)) :
    plan.Trail st.history.toList st.run := by
  obtain ⟨⟨run, s, t, t', begun, prepared⟩, history, -, -⟩ := of_play_opening played
  rw [history]
  exact .ready begun prepared

theorem Trail.rounds {n : Nat} {st st' : Stage σ} (h : plan.Trail st.history.toList st.run)
    (played : plan.play (plan.rounds n) st = (.ok (), st')) :
    plan.Trail st'.history.toList st'.run := by
  induction n generalizing st with
  | zero =>
    cases played
    exact h
  | succ n ih =>
    rw [rounds_succ] at played
    obtain ⟨mid, first, rest⟩ := of_play_append played
    obtain ⟨holds, completes⟩ := of_play_round first
    obtain ⟨s, s', completed⟩ := completes.completed
    obtain ⟨snap, t, t', summed, history⟩ := completes.summed
    refine ih ?_ rest
    rw [history, Array.toList_push]
    exact .next h completed summed

/-- A run that has fitness and a best point can be summed up. -/
theorem exists_snapshot {F : Rows Float} {best : Best Float} (silent : plan.record = none)
    (known : run.fitness = .ok F) (reported : run.bestF = .ok best) (s : Session σ) :
    ∃ snap, (plan.snapshot run run.view).run s = (.ok snap, s) := by
  rw [snapshot, known, reported, silent]
  exact ⟨_, rfl⟩

/-- A result is made of the run at the end of a trail. Its history is what was summed up on the
way. -/
theorem trail_of_solve {session : Session σ} {result : Result (Best Float)}
    (solved : (plan.solve.run (.fresh, session)).1 = .ok result) :
    ∃ run, plan.Trail result.history run ∧ run.bestF = .ok result.best := by
  obtain ⟨answer, solver, session', solves, course⟩ := plan.solve_course session
  rw [solves] at solved
  obtain rfl : answer = .ok result := solved
  obtain ⟨g, st, -, played, -, reported⟩ := of_course_ok course
  obtain ⟨st₀, st₁, made, opened, rounds, resulted, report, -⟩ := of_play_schedule played
  rw [report] at reported
  cases reported
  obtain ⟨best, history, -⟩ := of_resultOf resulted
  rw [history]
  exact ⟨_, (trail_of_opening opened).rounds rounds, best⟩

end Plan

end BoxSearch
