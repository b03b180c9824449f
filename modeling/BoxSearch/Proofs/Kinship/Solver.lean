import BoxSearch.Proofs.Kinship.Strategy
import BoxSearch.Proofs.Kinship.View
import BoxSearch.Proofs.Solver.Reached

/-!
Solvers at work on kin runs.

Two plans that differ only in how their runs begin go alongside each other from kin runs on, provided
that nobody whom they ask or tell sees the difference: both fail with the same error, after as many
generations, or both have results, and these are kin.
-/

namespace BoxSearch

variable {σ : Type} {R S : Float → Float → Prop} {box : Bounds Float} {k : Nat} {β γ : Type}

/-- Solvers of kin runs. -/
structure Solver.Kin (R S : Float → Float → Prop) (k : Nat) (s s' : Solver) : Prop where
  phase : s.phase = s'.phase
  history : Related (Snapshot.Kin S k) s.history s'.history
  result : Option.Rel (Result.Kin R S k) s.result s'.result
  releases : s.releases = s'.releases

/-- The solvers are kin, and the user's states are the same. -/
structure KinSolvers (R S : Float → Float → Prop) (k : Nat) (s s' : Solver × Session σ) : Prop where
  solver : s.1.Kin R S k s'.1
  user : s.2.user = s'.2.user

/-- Results of work on runs, with the runs as they are afterwards. -/
abbrev WorkedKin (R S : Float → Float → Prop) (box : Bounds Float) (k : Nat) (Q : β → γ → Prop)
    (p : β × Run Float Value) (p' : γ × Run Float Value) : Prop :=
  Q p.1 p'.1 ∧ p.2.Kin R S box k p'.2

namespace Solving

variable {Q : β → γ → Prop}

theorem kin_current {f : Solver → Solving σ β} {f' : Solver → Solving σ γ}
    (next : ∀ solver solver', solver.Kin R S k solver' →
      Alongside (KinSolvers R S k) Q (f solver) (f' solver')) :
    Alongside (KinSolvers R S k) Q (current >>= f) (current >>= f') := by
  intro s s' h
  exact next s.1 s'.1 h.solver s s' h

theorem kin_update {change change' : Solver → Solver}
    (h : ∀ solver solver', solver.Kin R S k solver' →
      (change solver).Kin R S k (change' solver')) :
    Alongside (KinSolvers (σ := σ) R S k) (fun _ _ => True) (update change) (update change') :=
  fun s s' hs => ⟨.ok trivial, h s.1 s'.1 hs.solver, hs.user⟩

theorem kin_enter (phase : Phase) :
    Alongside (KinSolvers (σ := σ) R S k) (fun _ _ => True) (enter phase) (enter phase) :=
  kin_update fun _ _ h => { h with phase := rfl }

theorem kin_act {a : Act σ β} {a' : Act σ γ} (h : Alongside SameUser Q a a') :
    Alongside (KinSolvers R S k) Q (act a) (act a') := by
  intro s s' hs
  obtain ⟨outcomes, user⟩ := h s.2 s'.2 hs.user
  exact ⟨outcomes, hs.solver, user⟩

theorem kin_log (event event' : Log.Event) :
    Alongside (KinSolvers (σ := σ) R S k) (fun _ _ => True) (log event) (log event') :=
  kin_act (Act.log_kin _ _)

theorem kin_ofExcept {r : Except Error β} {r' : Except Error γ} (h : Matched Q r r') :
    Alongside (KinSolvers (σ := σ) R S k) Q (Solving.ofExcept r) (Solving.ofExcept r') :=
  alongside_ofExcept h

/-- Work on two runs that goes alongside from where they are. -/
theorem kin_onRun_from {run run' : Run Float Value} {search : Search σ Float Value β}
    {search' : Search σ Float Value γ}
    (h : ∀ session session', session.user = session'.user →
      Matched Q (search.run (run, session)).1 (search'.run (run', session')).1 ∧
        KinStates Eq R S box k (search.run (run, session)).2 (search'.run (run', session')).2) :
    Alongside (KinSolvers R S k) (WorkedKin R S box k Q) (onRun run search)
      (onRun run' search') := by
  rintro ⟨solver, session⟩ ⟨solver', session'⟩ ⟨same, user⟩
  obtain ⟨outcomes, states⟩ := h session session' user
  exact ⟨outcomes.map fun _ _ related => ⟨related, states.run⟩, same, states.user⟩

theorem kin_onRun {run run' : Run Float Value} {search : Search σ Float Value β}
    {search' : Search σ Float Value γ} (runs : run.Kin R S box k run')
    (h : Alongside (KinStates Eq R S box k) Q search search') :
    Alongside (KinSolvers R S k) (WorkedKin R S box k Q) (onRun run search)
      (onRun run' search') :=
  kin_onRun_from fun session session' user => h (run, session) (run', session') ⟨runs, user⟩

/-- The rule for a computation whose failure is handled. -/
theorem kin_handled {β' γ' : Type} {Q' : β' → γ' → Prop} {m : Solving σ β} {m' : Solving σ γ}
    {f : Except Error β → Solving σ β'} {f' : Except Error γ → Solving σ γ'}
    (first : Alongside (KinSolvers R S k) Q m m')
    (next : ∀ r r', Matched Q r r' → Alongside (KinSolvers R S k) Q' (f r) (f' r')) :
    Alongside (KinSolvers R S k) Q' (Solving.attempt m >>= f) (Solving.attempt m' >>= f') := by
  intro s s' h
  obtain ⟨outcomes, related⟩ := first s s' h
  exact next _ _ outcomes _ _ related

end Solving

namespace Plan

open Solving

/-- The plan with another way to its first population. -/
def withOpening (plan : Plan σ) (population : Option (Population.Evaluated Float))
    (initializer : Option (Initializer σ)) : Plan σ :=
  { plan with population, initializer }

/-- Nobody whom the plan asks or tells looks at numbers of evaluations or at a clock, or tells kin
views apart. -/
structure Blind (R S : Float → Float → Prop) (plan : Plan σ) : Prop where
  policy : plan.policy.Blind R S
  callback : ∀ f, plan.callback = some f → ∀ v v', View.Kin R S v v' → f v = f v'
  record : ∀ f, plan.record = some f → ∀ v v', View.Kin R S v v' → f v = f v'
  observers : ∀ o ∈ plan.observers, o.Blind R S

variable {plan : Plan σ} {q q' : Option (Population.Evaluated Float)}
  {i i' : Option (Initializer σ)} {run run' : Run Float Value}

theorem kin_observers {f f' : Observer σ → Solving σ PUnit} {os : List (Observer σ)}
    (h : ∀ o ∈ os, Alongside (KinSolvers R S k) (fun _ _ => True) (f o) (f' o)) :
    Alongside (KinSolvers R S k) (fun _ _ => True) (os.forM f) (os.forM f') := by
  refine alongside_forM (Q := fun o o' => o = o' ∧ o ∈ os)
    (List.forall₂_same.mpr fun o ho => ⟨rfl, ho⟩) ?_
  rintro o _ ⟨rfl, ho⟩
  exact h o ho

/-- What generations of kin runs leave: the same verdict, kin runs, and memories of kin runs. -/
structure RoundKin (R S : Float → Float → Prop) (box : Bounds Float) (k : Nat)
    (r r' : Bool × Run Float Value × Watch Float) : Prop where
  verdict : r.1 = r'.1
  run : r.2.1.Kin R S box k r'.2.1
  watch : r.2.2.Kin S r'.2.2

variable [Kinship R] [Kinship S]

theorem kin_generation (blind : plan.Blind R S)
    (kin : Evaluator.Kin Eq R S box plan.evaluator plan.evaluator) {watch watch' : Watch Float}
    (h : run.Kin R S box k run') (remembered : watch.Kin S watch') :
    Alongside (KinSolvers R S k) (RoundKin R S box k)
      ((plan.withOpening q i).generation run watch)
      ((plan.withOpening q' i').generation run' watch') := by
  refine alongside_bind (kin_onRun h (Strategy.kin_generation kin plan.settings)) ?_
  rintro ⟨_, next⟩ ⟨_, next'⟩ ⟨-, after⟩
  have summary := snapshot_kin blind.record after
  refine alongside_bind (kin_act summary) ?_
  intro snap snap' summed
  refine alongside_bind (kin_update fun _ _ solver =>
    { solver with history := solver.history.push summed }) fun _ _ _ => ?_
  refine alongside_bind (kin_log _ _) fun _ _ _ => ?_
  have told : Alongside (KinSolvers R S k) (RoundKin R S box k) (do
        plan.observers.forM fun o => act (o.onGeneration next.view)
        let ruled ← act (plan.policy.stops plan.clock watch next.view)
        return (ruled.1, next, ruled.2)) (do
        plan.observers.forM fun o => act (o.onGeneration next'.view)
        let ruled ← act (plan.policy.stops plan.clock watch' next'.view)
        return (ruled.1, next', ruled.2)) := by
    refine alongside_bind (kin_observers fun o ho => kin_act ?_) fun _ _ _ => ?_
    · exact (blind.observers o ho).onGeneration _ _ after.view
    refine alongside_bind (kin_act (blind.policy.stops plan.clock remembered after.view)) ?_
    exact fun _ _ ruled => alongside_pure ⟨ruled.1, after, ruled.2⟩
  simp only [withOpening]
  cases supplied : plan.callback with
  | none => exact told
  | some callback =>
    refine alongside_bind (Q := fun _ _ => True) ?_ fun _ _ _ => told
    rw [blind.callback callback supplied _ _ after.view]
    exact kin_act (alongside_bind (Act.call_kin _) fun _ _ _ => alongside_pure trivial)

theorem kin_loop (blind : plan.Blind R S)
    (kin : Evaluator.Kin Eq R S box plan.evaluator plan.evaluator) (fuel : Nat)
    {watch watch' : Watch Float} (h : run.Kin R S box k run') (remembered : watch.Kin S watch') :
    Alongside (KinSolvers R S k) (Run.Kin R S box k) ((plan.withOpening q i).loop fuel run watch)
      ((plan.withOpening q' i').loop fuel run' watch') := by
  induction fuel generalizing run run' watch watch' with
  | zero => exact alongside_throw _
  | succ fuel ih =>
    refine alongside_bind (kin_generation blind kin h remembered) ?_
    intro r r' round
    apply alongside_ite (by rw [round.verdict])
    · exact fun _ => alongside_pure round.run
    · exact fun _ => ih round.run round.watch

/-- Two plans begin alike: both succeed, or both fail with the same error, and they leave kin
runs. -/
def BeginsKin (J : σ → σ → Prop) (R S : Float → Float → Prop) (box : Bounds Float) (k : Nat)
    (plan plan' : Plan σ) : Prop :=
  ∀ session session', J session.user session'.user →
    Matched (fun _ _ => True) (plan.begin.run (plan.start, session)).1
        (plan'.begin.run (plan'.start, session')).1 ∧
      KinStates J R S box k (plan.begin.run (plan.start, session)).2
        (plan'.begin.run (plan'.start, session')).2

theorem kin_attempt (blind : plan.Blind R S)
    (kin : Evaluator.Kin Eq R S box plan.evaluator plan.evaluator)
    (begins : BeginsKin Eq R S box k (plan.withOpening q i) (plan.withOpening q' i')) :
    Alongside (KinSolvers R S k)
      (fun p p' => p.1.Kin R S box k p'.1 ∧ p.2.Kin R S k p'.2)
      (plan.withOpening q i).attempt (plan.withOpening q' i').attempt := by
  refine alongside_bind (kin_onRun_from begins) ?_
  rintro ⟨_, begun⟩ ⟨_, begun'⟩ ⟨-, opened⟩
  refine alongside_bind (kin_enter _) fun _ _ _ => ?_
  refine alongside_bind (kin_onRun opened (Strategy.kin_prepare plan.settings)) ?_
  rintro ⟨_, ready⟩ ⟨_, ready'⟩ ⟨-, prepared⟩
  refine alongside_bind (kin_act (blind.policy.start plan.clock prepared.view)) ?_
  intro watch watch' remembered
  refine alongside_bind (kin_log _ _) fun _ _ _ => ?_
  refine alongside_bind (kin_observers fun o ho => kin_act ?_) fun _ _ _ => ?_
  · have size : ready.popSize = ready'.popSize := prepared.popSize
    have told : (plan.withOpening q i).info ready = (plan.withOpening q' i').info ready' := by
      simp only [info, withOpening, size]
    rw [told]
    exact (blind.observers o ho).onStart _
  refine alongside_bind (kin_enter _) fun _ _ _ => ?_
  refine alongside_bind (kin_loop blind kin _ prepared remembered) ?_
  intro last last' ended
  refine alongside_bind (kin_enter _) fun _ _ _ => kin_current fun solver solver' same => ?_
  refine alongside_bind (kin_ofExcept (resultOf_kin plan ended same.history)) ?_
  exact fun result result' told => alongside_pure ⟨ended, told⟩

section Reached

variable (begins : BeginsKin (fun _ _ => True) R S box k (plan.withOpening q i)
    (plan.withOpening q' i'))
  (kin : Evaluator.Kin (fun _ _ => True) R S box plan.evaluator plan.evaluator) {n : Nat}

include begins kin

/-- Runs that are reached after as many generations are kin. -/
theorem kin_of_reached (reached : (plan.withOpening q i).Reached n run)
    (reached' : (plan.withOpening q' i').Reached n run') : run.Kin R S box k run' := by
  induction reached generalizing run' with
  | @ready begun _ s _ t _ begins₁ prepared =>
    cases reached' with
    | @ready begun' _ s' _ t' _ begins₂ prepared' =>
      obtain ⟨-, opened⟩ := begins s s' trivial
      rw [begins₁, begins₂] at opened
      change (Strategy.prepare plan.settings).run _ = _ at prepared prepared'
      have loose : KinStates (fun (_ _ : σ) => True) R S box k (begun, t) (begun', t') :=
        ⟨opened.run, trivial⟩
      obtain ⟨-, states⟩ := Strategy.kin_prepare plan.settings _ _ loose
      rw [prepared, prepared'] at states
      exact states.run
  | @next n before _ s _ reached completed ih =>
    cases reached' with
    | @next _ before' _ s' _ reached' completed' =>
      change (Strategy.generation plan.settings plan.evaluator).run _ = _ at completed completed'
      obtain ⟨-, states⟩ := Strategy.kin_generation kin plan.settings (before, s) (before', s')
        ⟨ih reached', trivial⟩
      rw [completed, completed'] at states
      exact states.run

/-- The second plan gets as far as the first one. -/
theorem reached_left (reached : (plan.withOpening q i).Reached n run) :
    ∃ run', (plan.withOpening q' i').Reached n run' := by
  induction reached with
  | @ready begun _ s _ t _ begins₁ prepared =>
    obtain ⟨outcomes, opened⟩ := begins s s trivial
    rw [begins₁] at outcomes opened
    obtain ⟨_, done, -⟩ := outcomes.ok_left
    have loose : KinStates (fun (_ _ : σ) => True) R S box k (begun, t) (_, t) :=
      ⟨opened.run, trivial⟩
    obtain ⟨_, _, prepared', -⟩ := (Strategy.kin_prepare plan.settings).ok_left loose prepared
    exact ⟨_, .ready (Prod.ext done rfl) prepared'⟩
  | @next n before _ s _ reached completed ih =>
    obtain ⟨before', reached'⟩ := ih
    have loose : KinStates (fun (_ _ : σ) => True) R S box k (before, s) (before', s) :=
      ⟨kin_of_reached begins kin reached reached', trivial⟩
    obtain ⟨_, _, completed', -⟩ :=
      (Strategy.kin_generation kin plan.settings).ok_left loose completed
    exact ⟨_, .next reached' completed'⟩

/-- The first plan gets as far as the second one. -/
theorem reached_right (reached' : (plan.withOpening q' i').Reached n run') :
    ∃ run, (plan.withOpening q i).Reached n run := by
  induction reached' with
  | @ready begun _ s _ t _ begins₂ prepared' =>
    obtain ⟨outcomes, opened⟩ := begins s s trivial
    rw [begins₂] at outcomes opened
    obtain ⟨_, done, -⟩ := outcomes.ok_right
    have loose : KinStates (fun (_ _ : σ) => True) R S box k (_, t) (begun, t) :=
      ⟨opened.run, trivial⟩
    obtain ⟨_, _, prepared, -⟩ := (Strategy.kin_prepare plan.settings).ok_right loose prepared'
    exact ⟨_, .ready (Prod.ext done rfl) prepared⟩
  | @next n before' _ s _ reached' completed' ih =>
    obtain ⟨before, reached⟩ := ih
    have loose : KinStates (fun (_ _ : σ) => True) R S box k (before, s) (before', s) :=
      ⟨kin_of_reached begins kin reached reached', trivial⟩
    obtain ⟨_, _, completed, -⟩ :=
      (Strategy.kin_generation kin plan.settings).ok_right loose completed'
    exact ⟨_, .next reached completed⟩

end Reached

omit [Kinship R] [Kinship S] in
theorem kin_conclude (blind : plan.Blind R S) (h : run.Kin R S box k run')
    {result result' : Result (Best Float)} (told : result.Kin R S k result') :
    Alongside (KinSolvers R S k) (Result.Kin R S k) ((plan.withOpening q i).conclude run result)
      ((plan.withOpening q' i').conclude run' result') := by
  have announced : Alongside (KinSolvers R S k) (Result.Kin R S k) (do
        update fun s => { s with result := some result, phase := .resultAvailable }
        log (.finished plan.settings.family.name result.generations.toNat result.nEval.toNat)
        plan.observers.forM fun o => act (o.onEnd result.generations result.nEval)
        return result) (do
        update fun s => { s with result := some result', phase := .resultAvailable }
        log (.finished plan.settings.family.name result'.generations.toNat result'.nEval.toNat)
        plan.observers.forM fun o => act (o.onEnd result'.generations result'.nEval)
        return result') := by
    refine alongside_bind (kin_update fun _ _ solver =>
      { solver with result := .some told, phase := rfl }) fun _ _ _ => ?_
    refine alongside_bind (kin_log _ _) fun _ _ _ => ?_
    refine alongside_bind (kin_observers fun o ho => kin_act ?_) fun _ _ _ => ?_
    · rw [told.generations]
      exact (blind.observers o ho).onEnd _ _ _
    · exact alongside_pure told
  apply alongside_ite (by rw [h.nonFinite])
  · exact fun _ => alongside_bind (kin_log _ _) fun _ _ _ => announced
  · exact fun _ => announced

omit [Kinship R] [Kinship S] in
theorem kin_release (plan : Plan σ) :
    Alongside (KinSolvers (σ := σ) R S k) (fun _ _ => True) (plan.withOpening q i).release
      (plan.withOpening q' i').release := by
  apply alongside_ite Iff.rfl
  · exact fun _ => kin_update fun _ _ solver =>
      { solver with releases := congrArg (· + 1) solver.releases }
  · exact fun _ => alongside_pure trivial

/-- Whole runs go alongside each other. -/
theorem kin_solve (blind : plan.Blind R S)
    (kin : Evaluator.Kin Eq R S box plan.evaluator plan.evaluator)
    (begins : BeginsKin Eq R S box k (plan.withOpening q i) (plan.withOpening q' i')) :
    Alongside (KinSolvers R S k) (Result.Kin R S k) (plan.withOpening q i).solve
      (plan.withOpening q' i').solve := by
  apply kin_current
  intro solver solver' same
  dsimp only
  rw [same.phase]
  apply alongside_guard Iff.rfl
  apply kin_handled (kin_attempt blind kin begins)
  rintro _ _ (⟨ended, told⟩ | e)
  · refine alongside_bind (kin_release plan) fun _ _ _ => ?_
    exact kin_conclude blind ended told
  · refine alongside_bind (kin_enter _) fun _ _ _ => kin_current fun _ _ _ => ?_
    refine alongside_bind (kin_log _ _) fun _ _ _ => ?_
    exact alongside_bind (kin_release plan) fun _ _ _ => alongside_throw e

end Plan

end BoxSearch
