import BoxSearch.Proofs.Archive.Representative
import BoxSearch.Proofs.Strategy.Moves

/-!
What a generation offers to the front.

Whatever the strategy, the front is offered the points that the generation evaluates, and nothing
else happens to it, but that a swarm has its crowding distances computed on the way.
-/

namespace BoxSearch

open Search

variable {σ P : Type} {evaluator : Evaluator σ Float P} {s : Run Float P × Session σ}

/-- The tracker with the crowding distances of its front at hand. -/
def Tracker.measured : Tracker Float P → Tracker Float P
  | single s => single s
  | several s => several s.measured

theorem Run.tracker_measureFront (run : Run Float P) :
    run.measureFront.tracker = run.tracker.map Tracker.measured := by
  rw [measureFront]
  cases tracked : run.tracker with
  | none => exact tracked
  | some t => cases t <;> first | exact tracked | rfl

namespace Swarm

theorem prepare_tracker :
    Ensures (prepare : Search σ Float P Unit) s fun _ s' => s'.1.tracker = s.1.tracker := by
  simp only [prepare, ensures_bind, ensures_current, ensures_ofExcept, ensures_update, remember_eq]
  intro F _
  trivial

theorem updateBests_tracker :
    Ensures (updateBests : Search σ Float P Unit) s fun _ s' => s'.1.tracker = s.1.tracker := by
  simp only [updateBests, ensures_bind, ensures_current, ensures_ofExcept, ensures_ite,
    ensures_throw, ensures_update, remember_eq]
  intro bestX _ bestF _ F _
  exact ⟨fun _ => trivial, fun _ => trivial⟩

theorem fly_tracker (settings : Settings) :
    Ensures (fly settings : Search σ Float P Unit) s fun _ s' =>
      s'.1.tracker = s.1.tracker.map Tracker.measured := by
  simp only [fly, ensures_bind, ensures_current, ensures_ofExcept, ensures_ite, ensures_throw,
    ensures_update]
  refine updateBests_tracker.mono fun _ s₁ first velocity _ bestX _ => ?_
  refine ⟨fun _ => trivial, fun _ => ?_⟩
  refine (perIndividual_ensures _).mono fun velocity' s₂ outcome => ?_
  obtain ⟨_, streams, drawn⟩ := outcome
  rw [drawn, ← first, ← Run.tracker_measureFront]
  rfl

theorem step_tracker (settings : Settings) :
    Ensures (step settings : Search σ Float P Unit) s fun _ s' =>
      s'.1.tracker = s.1.tracker.map Tracker.measured := by
  rw [step_eq]
  simp only [ensures_bind, ensures_current, ensures_ite]
  refine ⟨fun _ => ?_, fun _ => fly_tracker settings⟩
  refine prepare_tracker.mono fun _ s₁ first => ?_
  refine (fly_tracker settings).mono fun _ s₂ second => ?_
  rw [second, first]

end Swarm

/-- The front is offered points one by one, and becomes the front of a run between two generations.
The points have been evaluated since an earlier state of the run: they are answers of the
evaluator. -/
structure Run.Offers (evaluator : Evaluator σ Float P) (run : Run Float P) (front : Front Float P)
    (points : List (Member Float P)) (run' : Run Float P) : Prop where
  tracked : run'.tracker = some (.several (points.foldl Front.take front))
  idle : run'.pending = #[]
  nEval : run'.nEval = run.nEval + points.length
  honest : ∀ R : Rating Float P, evaluator.Honest R → ∀ m ∈ points, R m.x m.f m.product

namespace Strategy

theorem prepare_tracker (settings : Settings) :
    Ensures (prepare settings : Search σ Float P Unit) s fun _ s' =>
      s'.1.tracker = s.1.tracker := by
  cases settings with
  | swarm settings => exact Swarm.prepare_tracker
  | genetic | differential | firefly | teaching => exact (ensures_pure _).mpr rfl

/-- A generation after its step: what is stale is evaluated, and all that waits is folded. -/
theorem completion_offers {s₁ : Run Float P × Session σ} {front : Front Float P}
    {answers : List (Member Float P)} (moves : Run.Moves evaluator s₁ answers s)
    (tracked : s₁.1.tracker = some (.several front)) (idle : s₁.1.pending = #[]) :
    Ensures (do
      let _ ← evaluateAll evaluator
      updateBest
      update Run.completeGeneration) s fun _ s' =>
        ∃ points, s₁.1.Offers evaluator front points s'.1 := by
  simp only [ensures_bind, ensures_update]
  refine evaluateAll_moves.mono fun _ s₂ evaluated => ?_
  obtain ⟨answers', more⟩ := evaluated
  refine updateBest_ensures.mono fun _ s₃ folded => ?_
  have whole := (moves.trans more).trans (.folded folded.1)
  obtain ⟨t, tracked', folds⟩ := whole.folds tracked
  have pending : s₃.1.pending = #[] := by rw [folded.1]
  rw [pending, idle] at folds
  refine ⟨_, ?_, pending, whole.accounts.nEval, fun R => whole.honest⟩
  rw [← Tracker.foldl_take_front]
  exact tracked'.trans (congrArg some folds)

/-- In a generation the front is offered the points that are evaluated, which are answers of the
evaluator. -/
theorem generation_offers (settings : Settings) {front : Front Float P}
    (tracked : s.1.tracker = some (.several front)) (idle : s.1.pending = #[]) :
    Ensures (generation settings evaluator) s fun _ s' => ∃ start points,
      (start = front ∨ start = front.measured) ∧ s.1.Offers evaluator start points s'.1 := by
  rw [generation, ensures_bind]
  cases settings with
  | swarm settings =>
    refine ((Swarm.step_tracker settings).and (Swarm.step_sameCounts settings)).mono
      fun _ s₁ stepped => ?_
    obtain ⟨measured, same, -⟩ := stepped
    rw [tracked] at measured
    refine (completion_offers (.refl s₁) measured (same.pending.trans idle)).mono fun _ s' done => ?_
    obtain ⟨points, tracked', idle', nEval, honest⟩ := done
    rw [same.nEval] at nEval
    exact ⟨front.measured, points, .inr rfl, tracked', idle', nEval, honest⟩
  | genetic | differential | firefly | teaching =>
    refine (step_moves fun _ h => by cases h).mono fun _ s₁ stepped => ?_
    obtain ⟨answers, moves⟩ := stepped
    refine (completion_offers moves tracked idle).mono fun _ s' done => ?_
    obtain ⟨points, offers⟩ := done
    exact ⟨front, points, .inl rfl, offers⟩

end Strategy

end BoxSearch
