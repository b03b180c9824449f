import BoxSearch.Proofs.Strategy.Agreement
import BoxSearch.Solver.Solve

/-!
Two plans that differ only in how rows are evaluated.

If the ways to evaluate agree, so do the whole runs: the history, the result and the phase in
which the solver ends are the same. The name of the backend is told to the log and to the
observers, so the observers must be such that the name makes no difference to them.
-/

namespace BoxSearch

variable {σ β : Type}

/-- A solver with another count of backends given back. -/
abbrev Solver.counting (solver : Solver) (releases : Nat) : Solver :=
  { solver with releases }

/-- The solvers are the same except for how often a backend was given back, and so are the user's
states. -/
structure TwinSolvers (s s' : Solver × Session σ) : Prop where
  solver : s'.1 = s.1.counting s'.1.releases
  user : s.2.user = s'.2.user

theorem TwinSolvers.shows {s s' : Solver × Session σ} (h : TwinSolvers s s') :
    s.1.phase = s'.1.phase ∧ s.1.history = s'.1.history ∧ s.1.result = s'.1.result := by
  rw [h.solver]
  exact ⟨rfl, rfl, rfl⟩

namespace Solving

theorem agree_current {f f' : Solver → Solving σ β}
    (next : ∀ solver releases, Agree TwinSolvers (f solver) (f' (solver.counting releases))) :
    Agree TwinSolvers (current >>= f) (current >>= f') := by
  intro s s' h
  have first : (current >>= f').run s' = (f' (s.1.counting s'.1.releases)).run s' :=
    congrArg (fun solver => (f' solver).run s') h.solver
  rw [AgreeFrom, first]
  exact next s.1 _ s s' h

/-- A change of a solver to which it makes no difference how often a backend was given back. -/
theorem agree_update {change : Solver → Solver}
    (blind : ∀ solver releases,
      change (solver.counting releases) = (change solver).counting releases) :
    Agree (TwinSolvers (σ := σ)) (update change) (update change) := by
  intro s s' h
  have counts : change s'.1 = (change s.1).counting s'.1.releases := by
    rw [h.solver]
    exact blind _ _
  refine ⟨.ok (), ?_, h.user⟩
  change change s'.1 = (change s.1).counting (change s'.1).releases
  rw [counts]

theorem agree_enter (phase : Phase) :
    Agree (TwinSolvers (σ := σ)) (enter phase) (enter phase) :=
  agree_update fun _ _ => rfl

theorem agree_act {a a' : Act σ β} (h : Agree SameUser a a') :
    Agree TwinSolvers (act a) (act a') := by
  intro s s' hs
  obtain ⟨results, user⟩ := h s.2 s'.2 hs.user
  exact ⟨results, hs.solver, user⟩

theorem agree_log (event event' : Log.Event) :
    Agree (TwinSolvers (σ := σ)) (log event) (log event') :=
  fun _ _ hs => ⟨.ok (), hs.solver, hs.user⟩

theorem agree_ofExcept (r : Except Error β) :
    Agree (TwinSolvers (σ := σ)) (Solving.ofExcept r) (Solving.ofExcept r) :=
  BoxSearch.agree_ofExcept r

/-- Work on a run agrees if it does so on runs that are the same. -/
theorem agree_onRun (run : Run Float Value) {search search' : Search σ Float Value β}
    (h : Agree Twins search search') :
    Agree TwinSolvers (onRun run search) (onRun run search') := by
  rintro ⟨solver, ses⟩ ⟨solver', ses'⟩ ⟨same, user⟩
  obtain ⟨results, twins⟩ := h (run, ses) (run, ses') (twins_iff.mpr ⟨rfl, user⟩)
  obtain ⟨runs, users⟩ := twins_iff.mp twins
  refine ⟨?_, same, users⟩
  change Agreed ((search.run (run, ses)).1.map (·, (search.run (run, ses)).2.1))
    ((search'.run (run, ses')).1.map (·, (search'.run (run, ses')).2.1))
  rw [runs]
  exact results.map _

theorem attempt_run (m : Solving σ β) {γ : Type} (f : Except Error β → Solving σ γ)
    (s : Solver × Session σ) :
    (Solving.attempt m >>= f).run s = (f (m.run s).1).run (m.run s).2 :=
  rfl

/-- The rule for a computation whose failure is handled. -/
theorem agree_handled {γ : Type} {m m' : Solving σ β} {f f' : Except Error β → Solving σ γ}
    (first : Agree TwinSolvers m m') (ok : ∀ b, Agree TwinSolvers (f (.ok b)) (f' (.ok b)))
    (error : ∀ e e', Agreed (.error e : Except Error γ) (.error e') →
      Agree TwinSolvers (f (.error e)) (f' (.error e'))) :
    Agree TwinSolvers (Solving.attempt m >>= f) (Solving.attempt m' >>= f') := by
  intro s s' h
  obtain ⟨results, related⟩ := first s s' h
  rw [AgreeFrom, attempt_run, attempt_run]
  cases hm : (m.run s).1 with
  | ok b =>
    rw [hm] at results
    generalize hm' : (m'.run s').1 = r' at results ⊢
    cases results
    exact ok b _ _ related
  | error e =>
    rw [hm] at results
    generalize hm' : (m'.run s').1 = r' at results ⊢
    cases results with
    | error => exact error e e (.error e) _ _ related
    | evaluation first second => exact error e _ (.evaluation first second) _ _ related

end Solving

namespace Policy

variable {α : Type} [Scalar α]

theorem agree_start (policy : Policy σ α) (clock : Call σ α) (view : View α) :
    Agree SameUser (policy.start clock view) (policy.start clock view) := by
  unfold start
  cases policy.rule with
  | stall generations tol => exact agree_pure _
  | timeLimit seconds => exact agree_bind (Act.call_blind _) fun _ => agree_pure _
  | never | threshold | predicate =>
    cases policy.checkObjectives view.nObj with
    | ok => exact agree_pure _
    | error e => exact agree_throw _

theorem agree_ruleHolds (policy : Policy σ α) (clock : Call σ α) (watch : Watch α)
    (view : View α) :
    Agree SameUser (policy.ruleHolds clock watch view) (policy.ruleHolds clock watch view) := by
  unfold ruleHolds
  cases policy.rule with
  | never => exact agree_pure _
  | threshold target => exact agree_bind (agree_ofExcept _) fun _ => agree_pure _
  | predicate holds => exact agree_bind (Act.call_blind _) fun _ => agree_pure _
  | stall generations tol => exact agree_bind (agree_ofExcept _) fun _ => agree_pure _
  | timeLimit seconds =>
    have elapsed (since : α) : Agree SameUser (do
        let elapsed := (← Act.call clock) - since
        return (decide (seconds ≤ elapsed), { watch with since := some since }) :
          Act σ (Bool × Watch α)) _ :=
      agree_bind (Act.call_blind _) fun _ => agree_pure _
    cases watch.since with
    | none => exact agree_bind (Act.call_blind _) elapsed
    | some since => exact elapsed since

theorem agree_stops (policy : Policy σ α) (clock : Call σ α) (watch : Watch α) (view : View α) :
    Agree SameUser (policy.stops clock watch view) (policy.stops clock watch view) :=
  agree_bind (agree_ruleHolds policy clock watch view) fun _ => agree_pure _

end Policy

/-- The observer does not look at the log, and which of two backends is named makes no difference to
it. -/
structure Observer.Indifferent (o : Observer σ) (name name' : String) : Prop where
  onStart : ∀ info : RunInfo,
    Agree SameUser (o.onStart { info with backend := name })
      (o.onStart { info with backend := name' })
  onGeneration : ∀ view, Agree SameUser (o.onGeneration view) (o.onGeneration view)
  onEnd : ∀ generations nEval,
    Agree SameUser (o.onEnd generations nEval) (o.onEnd generations nEval)

namespace Progress

theorem agree_log (pace : Pace) (line line' : String) :
    Agree (SameUser (σ := σ)) (pace.log line) (pace.log line') := by
  have entry (event event' : Log.Event) :
      Agree (SameUser (σ := σ)) (Act.log event) (Act.log event') :=
    fun _ _ same => ⟨.ok (), same⟩
  unfold Pace.log
  cases pace.level with
  | int level => exact entry _ _
  | bool b => exact entry _ _
  | absent | float | text | list | tuple | record | object => exact agree_throw _

/-- The observer that logs progress names the backend in its first line, and nothing else. -/
theorem indifferent (pace : Pace) (name name' : String) :
    (Observer.progress pace : Observer σ).Indifferent name name' where
  onStart info := agree_log pace _ _
  onGeneration view := by
    refine agree_guard ?_
    refine agree_ite (fun _ => ?_) fun _ => agree_pure _
    exact agree_bind (agree_ofExcept _) fun line => agree_log pace _ _
  onEnd generations nEval := agree_log pace _ _

end Progress

namespace Plan

open Solving

/-- The plan with another way to have rows evaluated. -/
def withBackend (plan : Plan σ) (backend : Backend σ) (name : String) (owns : Bool) : Plan σ :=
  { plan with backend, backendName := name, owns }

variable {plan : Plan σ} {backend backend' : Backend σ} {name name' : String} {owns owns' : Bool}

theorem agree_populate (plan : Plan σ) :
    Agree Twins plan.populate plan.populate := by
  unfold populate
  cases plan.population with
  | none => exact Initial.agree_populate _
  | some p =>
    refine Search.agree_read fun run => agree_bind (agree_ofExcept _) fun checked => ?_
    exact Search.agree_seed books_equalBooks _ _ _

theorem agree_snapshot (plan : Plan σ) (run : Run Float Value) (view : View Float) :
    Agree SameUser (plan.snapshot run view) (plan.snapshot run view) := by
  refine agree_bind (agree_ofExcept _) fun F => agree_bind (agree_ofExcept _) fun best => ?_
  cases plan.record with
  | none => exact agree_pure _
  | some record => exact agree_bind (Act.call_blind _) fun _ => agree_pure _

private theorem agree_observers {f f' : Observer σ → Solving σ PUnit} {os : List (Observer σ)}
    (h : ∀ o ∈ os, Agree TwinSolvers (f o) (f' o)) :
    Agree TwinSolvers (os.forM f) (os.forM f') := by
  induction os with
  | nil => exact agree_pure _
  | cons o os ih =>
    refine agree_bind (h o List.mem_cons_self) fun _ => ?_
    exact ih fun o' ho' => h o' (List.mem_cons_of_mem _ ho')

/-- The evaluations of two backends cannot be told apart. -/
def SameEvaluation (plan : Plan σ) (backend backend' : Backend σ) : Prop :=
  Evaluator.Agrees (backend.evaluate plan.target) (backend'.evaluate plan.target)

theorem agree_begin (same : plan.SameEvaluation backend backend') :
    Agree Twins (plan.withBackend backend name owns).begin
      (plan.withBackend backend' name' owns').begin := by
  refine agree_bind (agree_populate plan) fun _ => ?_
  exact agree_bind (Search.agree_evaluateAll books_equalBooks same) fun _ =>
    Search.agree_updateBest

theorem agree_generation (same : plan.SameEvaluation backend backend')
    (indifferent : ∀ o ∈ plan.observers, o.Indifferent name name') (run : Run Float Value)
    (watch : Watch Float) :
    Agree TwinSolvers ((plan.withBackend backend name owns).generation run watch)
      ((plan.withBackend backend' name' owns').generation run watch) := by
  refine agree_bind (agree_onRun run (Strategy.agree_generation same plan.settings))
    fun worked => ?_
  refine agree_bind (agree_act (agree_snapshot plan _ _)) fun snap => ?_
  refine agree_bind (agree_update fun _ _ => rfl) fun _ => ?_
  refine agree_bind (agree_log _ _) fun _ => ?_
  let tell : Solving σ (Bool × Run Float Value × Watch Float) := do
    plan.observers.forM fun o => act (o.onGeneration worked.2.view)
    let asked ← act (plan.policy.stops plan.clock watch worked.2.view)
    return (asked.1, worked.2, asked.2)
  have told : Agree TwinSolvers tell tell := by
    refine agree_bind (agree_observers fun o ho => ?_) fun _ => ?_
    · exact agree_act ((indifferent o ho).onGeneration _)
    · exact agree_bind (agree_act (Policy.agree_stops _ _ _ _)) fun _ => agree_pure _
  simp only [withBackend]
  cases plan.callback with
  | none => exact told
  | some callback =>
    refine agree_bind (agree_act ?_) fun _ => told
    exact agree_bind (Act.call_blind _) fun _ => agree_pure _

theorem agree_loop (same : plan.SameEvaluation backend backend')
    (indifferent : ∀ o ∈ plan.observers, o.Indifferent name name') (fuel : Nat)
    (run : Run Float Value) (watch : Watch Float) :
    Agree TwinSolvers ((plan.withBackend backend name owns).loop fuel run watch)
      ((plan.withBackend backend' name' owns').loop fuel run watch) := by
  induction fuel generalizing run watch with
  | zero => exact agree_throw _
  | succ fuel ih =>
    refine agree_bind (agree_generation same indifferent run watch) fun seen => ?_
    exact agree_ite (fun _ => agree_pure _) fun _ => ih _ _

theorem agree_attempt (same : plan.SameEvaluation backend backend')
    (indifferent : ∀ o ∈ plan.observers, o.Indifferent name name') :
    Agree TwinSolvers (plan.withBackend backend name owns).attempt
      (plan.withBackend backend' name' owns').attempt := by
  refine agree_bind (agree_onRun plan.start (agree_begin same)) fun begun => ?_
  refine agree_bind (agree_enter _) fun _ => ?_
  refine agree_bind (agree_onRun _ (Strategy.agree_prepare _)) fun prepared => ?_
  refine agree_bind (agree_act (Policy.agree_start _ _ _)) fun watch => ?_
  refine agree_bind (agree_log _ _) fun _ => ?_
  refine agree_bind (agree_observers fun o ho => agree_act ?_) fun _ => ?_
  · exact (indifferent o ho).onStart (plan.info prepared.2)
  refine agree_bind (agree_enter _) fun _ => ?_
  refine agree_bind (agree_loop same indifferent _ _ _) fun run => ?_
  refine agree_bind (agree_enter _) fun _ => agree_current fun solver releases => ?_
  exact agree_bind (Solving.agree_ofExcept _) fun result => agree_pure _

theorem agree_release (plan plan' : Plan σ) :
    Agree (TwinSolvers (σ := σ)) plan.release plan'.release := by
  have counted (plan : Plan σ) (s : Solver × Session σ) :
      ∃ releases, plan.release.run s = (.ok (), s.1.counting releases, s.2) := by
    unfold release
    by_cases owned : plan.owns = true
    · rw [if_pos owned]
      exact ⟨_, rfl⟩
    · rw [if_neg owned]
      exact ⟨_, rfl⟩
  intro s s' h
  obtain ⟨releases, run⟩ := counted plan s
  obtain ⟨releases', run'⟩ := counted plan' s'
  rw [AgreeFrom, run, run', h.solver]
  exact ⟨.ok (), rfl, h.user⟩

theorem agree_conclude (indifferent : ∀ o ∈ plan.observers, o.Indifferent name name')
    (run : Run Float Value) (result : Result (Best Float)) :
    Agree TwinSolvers ((plan.withBackend backend name owns).conclude run result)
      ((plan.withBackend backend' name' owns').conclude run result) := by
  let announce : Solving σ (Result (Best Float)) := do
    update fun s => { s with result := some result, phase := .resultAvailable }
    log (.finished plan.settings.family.name result.generations.toNat result.nEval.toNat)
    plan.observers.forM fun o => act (o.onEnd result.generations result.nEval)
    return result
  have announced : Agree TwinSolvers announce announce := by
    refine agree_bind (agree_update fun _ _ => rfl) fun _ => ?_
    refine agree_bind (agree_log _ _) fun _ => ?_
    refine agree_bind (agree_observers fun o ho => agree_act ?_) fun _ => agree_pure _
    exact (indifferent o ho).onEnd _ _
  exact agree_ite (fun _ => agree_bind (agree_log _ _) fun _ => announced) fun _ => announced

/-- Whole runs agree if the evaluations do. -/
theorem agree_solve (same : plan.SameEvaluation backend backend')
    (indifferent : ∀ o ∈ plan.observers, o.Indifferent name name') :
    Agree TwinSolvers (plan.withBackend backend name owns).solve
      (plan.withBackend backend' name' owns').solve := by
  refine agree_current fun solver releases => agree_guard ?_
  refine agree_handled (agree_attempt same indifferent) (fun outcome => ?_) fun e e' failed => ?_
  · exact agree_bind (agree_release _ _) fun _ => agree_conclude indifferent _ _
  · refine agree_bind (agree_enter _) fun _ => agree_current fun _ _ => ?_
    refine agree_bind (agree_log _ _) fun _ => agree_bind (agree_release _ _) fun _ => ?_
    exact fun _ _ h => ⟨failed, h⟩

end Plan

end BoxSearch
