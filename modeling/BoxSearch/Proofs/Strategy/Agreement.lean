import BoxSearch.Proofs.Run.Congruence
import BoxSearch.Strategy.Basic

/-!
Strategies agree if their evaluators do.

The two runs are the same to the last detail, tracker and waiting batches included, and so are the
states of the user. Only the logs may differ, at which no strategy looks.
-/

namespace BoxSearch

variable {σ α P : Type} [Scalar α] {β γ : Type}

/-- Tracker and waiting batches are the same. -/
def EqualBooks : BooksRelation α P :=
  fun t p t' p' => t' = t ∧ p' = p

omit [Scalar α] in
theorem books_equalBooks : Books (EqualBooks : BooksRelation α P) where
  isSome := by
    rintro t p _ _ ⟨rfl, rfl⟩
    rfl
  fresh := by
    rintro t p _ _ x ⟨rfl, rfl⟩
    exact ⟨rfl, rfl⟩
  push := by
    rintro t p _ _ b ⟨rfl, rfl⟩
    exact ⟨rfl, rfl⟩

theorem Run.alike_equalBooks {run run' : Run α P} : run.Alike EqualBooks run' ↔ run' = run := by
  constructor
  · rintro ⟨tracker, pending, rfl, rfl⟩
    rfl
  · rintro rfl
    exact ⟨run'.tracker, run'.pending, rfl, rfl⟩

/-- The runs are the same, and so are the user's states. -/
abbrev Twins (s s' : Run α P × Session σ) : Prop :=
  AlikeStates EqualBooks s s'

theorem twins_iff {s s' : Run α P × Session σ} :
    Twins s s' ↔ s'.1 = s.1 ∧ s.2.user = s'.2.user := by
  constructor
  · intro h
    exact ⟨Run.alike_equalBooks.mp h.run, h.user⟩
  · rintro ⟨run, user⟩
    exact ⟨Run.alike_equalBooks.mpr run, user⟩

namespace Search

theorem agree_read {f f' : Run α P → Search σ α P β} (next : ∀ run, Agree Twins (f run) (f' run)) :
    Agree Twins (current >>= f) (current >>= f') := by
  refine agree_current fun run run' halike => ?_
  rw [Run.alike_equalBooks.mp halike]
  exact next run

theorem agree_apply (change : Run α P → Run α P) :
    Agree (Twins (σ := σ)) (update change) (update change) := by
  refine agree_update fun run run' halike => ?_
  rw [Run.alike_equalBooks.mp halike]
  exact Run.alike_equalBooks.mpr rfl

theorem agree_mapM {ι : Type} {f : ι → Search σ α P β} (h : ∀ x, Agree Twins (f x) (f x))
    (xs : List ι) : Agree Twins (xs.mapM f) (xs.mapM f) := by
  induction xs with
  | nil => exact agree_pure _
  | cons x xs ih =>
    rw [List.mapM_cons]
    refine agree_bind (h x) fun y => ?_
    exact agree_bind ih fun _ => agree_pure _

theorem agree_updateBest :
    Agree Twins (updateBest : Search σ α P Unit) updateBest := by
  refine agree_read fun run => ?_
  cases run.tracker with
  | none => exact agree_apply _
  | some tracker =>
    refine agree_guard ?_
    exact agree_bind (agree_forM (fun _ => agree_log _ _) _) fun _ => agree_apply _

variable {e e' : Evaluator σ α P}

theorem agree_evaluateAccept (h : e.Agrees e') (X : Rows α) :
    Agree Twins (evaluateAccept e X) (evaluateAccept e' X) := by
  refine agree_bind (agree_evaluate books_equalBooks h X) fun F => agree_read fun run => ?_
  exact agree_bind (agree_ofExcept _) fun stored => agree_apply _

end Search

open Search

variable {e e' : Evaluator σ α P}

theorem Genetic.agree_step (h : e.Agrees e') (s : Genetic.Settings) :
    Agree Twins (step s e : Search σ α P Unit) (step s e') := by
  refine agree_read fun start => agree_bind (agree_draw _ _) fun order => ?_
  refine agree_bind (agree_mapM (fun pair => ?_) _) fun families => ?_
  · refine agree_read fun run => agree_bind (agree_draw _ _) fun children => ?_
    exact agree_bind (agree_draw _ _) fun d => agree_pure _
  refine agree_ite (fun _ => agree_log _ _) fun _ => ?_
  refine agree_bind (agree_evaluate books_equalBooks h _) fun FC => agree_read fun run => ?_
  exact agree_bind (agree_ofExcept _) fun _ => agree_apply _

theorem Differential.agree_step (h : e.Agrees e') (s : Differential.Settings) :
    Agree Twins (step s e : Search σ α P Unit) (step s e') := by
  refine agree_read fun start => agree_bind (agree_perIndividual _) fun trials => ?_
  exact agree_evaluateAccept h _

theorem Swarm.agree_prepare : Agree Twins (prepare : Search σ α P Unit) prepare := by
  refine agree_bind (agree_apply _) fun _ => agree_read fun run => ?_
  exact agree_bind (agree_ofExcept _) fun F => agree_apply _

theorem Swarm.agree_updateBests : Agree Twins (updateBests : Search σ α P Unit) updateBests := by
  refine agree_read fun run => ?_
  refine agree_bind (agree_ofExcept _) fun bestX => ?_
  refine agree_bind (agree_ofExcept _) fun bestF => ?_
  refine agree_bind (agree_ofExcept _) fun F => ?_
  exact agree_guard (agree_apply _)

/-- The step of a swarm that is prepared. -/
def Swarm.fly (s : Swarm.Settings) : Search σ α P Unit := do
  updateBests
  update Run.measureFront
  let run ← current
  let velocity ← Search.ofExcept (run.remembered .velocity)
  let bestX ← Search.ofExcept (run.remembered .bestX)
  if (velocity.row 0).size != run.dim || (bestX.row 0).size != run.dim then throw (.fault .value)
  let velocity ← perIndividual (accelerate s run velocity bestX)
  update fun run => (run.remember .velocity velocity).moveAll (Array.zipWith moved run.X velocity)

theorem Swarm.step_eq (s : Swarm.Settings) :
    (step s : Search σ α P Unit) = current >>= fun run =>
      if !run.remembers .velocity then prepare >>= fun _ => fly s else fly s :=
  rfl

theorem Swarm.agree_fly (s : Swarm.Settings) :
    Agree Twins (fly s : Search σ α P Unit) (fly s) := by
  refine agree_bind agree_updateBests fun _ => agree_bind (agree_apply _) fun _ => ?_
  refine agree_read fun run => ?_
  refine agree_bind (agree_ofExcept _) fun velocity => ?_
  refine agree_bind (agree_ofExcept _) fun bestX => ?_
  refine agree_guard ?_
  exact agree_bind (agree_perIndividual _) fun _ => agree_apply _

theorem Swarm.agree_step (s : Swarm.Settings) :
    Agree Twins (step s : Search σ α P Unit) (step s) := by
  rw [step_eq]
  refine agree_read fun run => ?_
  exact agree_ite (fun _ => agree_bind agree_prepare fun _ => agree_fly s) fun _ => agree_fly s

theorem Firefly.agree_step (h : e.Agrees e') (s : Firefly.Settings) :
    Agree Twins (step s e : Search σ α P Unit) (step s e') := by
  refine agree_read fun start => agree_bind (agree_ofExcept _) fun F => ?_
  refine agree_bind (agree_perIndividual _) fun drawn => ?_
  exact agree_bind (agree_evaluate books_equalBooks h _) fun FC => agree_apply _

theorem Teaching.agree_step (h : e.Agrees e') :
    Agree Twins (step e : Search σ α P Unit) (step e') := by
  refine agree_bind (agree_read fun run => ?_) fun _ => agree_read fun run => ?_
  · exact agree_bind (agree_perIndividual _) fun _ => agree_evaluateAccept h _
  · refine agree_bind (agree_ofExcept _) fun F => ?_
    exact agree_bind (agree_perIndividual _) fun _ => agree_evaluateAccept h _

namespace Strategy

theorem agree_prepare (s : Settings) :
    Agree Twins (prepare s : Search σ α P Unit) (prepare s) := by
  cases s with
  | swarm s => exact Swarm.agree_prepare
  | genetic | differential | firefly | teaching => exact agree_pure _

theorem agree_step (h : e.Agrees e') (s : Settings) :
    Agree Twins (step s e) (step s e') := by
  cases s with
  | genetic s => exact Genetic.agree_step h s
  | differential s => exact Differential.agree_step h s
  | swarm s => exact Swarm.agree_step s
  | firefly s => exact Firefly.agree_step h s
  | teaching => exact Teaching.agree_step h

/-- Generations agree if the evaluators do. -/
theorem agree_generation (h : e.Agrees e') (s : Settings) :
    Agree Twins (generation s e) (generation s e') := by
  refine agree_bind (agree_step h s) fun _ => ?_
  refine agree_bind (agree_evaluateAll books_equalBooks h) fun _ => ?_
  exact agree_bind agree_updateBest fun _ => agree_apply _

end Strategy

end BoxSearch
