import BoxSearch.Proofs.Archive.Lasting
import BoxSearch.Proofs.Strategy.Offers

/-!
A run that has found a point goes on with one.

The tracker of a run stays the kind of tracker that it is, and holds a point from the first
population on. No strategy can take that away, whatever the evaluator answers later. So with a
single objective there is always a number to show as the best fitness.
-/

namespace BoxSearch

open Search

variable {σ P : Type} {evaluator : Evaluator σ Float P} {s s' : Run Float P × Session σ} {w : Nat}

theorem Tracker.lasting_measured {t : Tracker Float P} (h : t.Lasting w) :
    t.measured.Lasting w := by
  cases t with
  | single s => exact h
  | several front =>
    refine ⟨h.hasBest, fun measured same => ?_⟩
    cases same
    exact h.roomy front rfl

namespace Run

/-- The tracker was made for `w` objectives and holds a point. -/
def Lasting (w : Nat) (run : Run Float P) : Prop :=
  ∃ t, run.tracker = some t ∧ t.Lasting w

/-- The number of objectives is there to be seen. -/
theorem Lasting.view_nObj {run : Run Float P} (h : run.Lasting w)
    (known : run.nObj = some (w : Int)) : run.view.nObj = some (w : Int) := by
  obtain ⟨t, tracked, -⟩ := h
  simp [view, objectives, tracked, known]

/-- The best fitness of a single objective is a number. -/
theorem Lasting.bestF_number {run : Run Float P} (h : run.Lasting 1) :
    ∃ f, run.bestF = .ok (.number f) := by
  obtain ⟨t, tracked, lasting⟩ := h
  cases t with
  | several front => exact absurd rfl (lasting.roomy front rfl).1
  | single incumbent =>
    obtain ⟨x, point⟩ := Option.isSome_iff_exists.mp
      (lasting.hasBest : incumbent.point.isSome = true)
    have noFront : run.front? = none := by simp [front?, tracked, Tracker.front?]
    have known : run.incumbent? = some (x, incumbent.fitness, incumbent.product) := by
      simp [incumbent?, tracked, point]
    exact ⟨incumbent.fitness, by simp [bestF, noFront, known]⟩

/-- Moves only show the tracker more points. -/
theorem Moves.lasting {answers : List (Member Float P)} (h : Moves evaluator s answers s')
    (lasting : s.1.Lasting w) : s'.1.Lasting w := by
  induction h with
  | quiet X F stale streams same =>
    rw [same]
    exact lasting
  | evaluated filled evaluated =>
    obtain ⟨_, _, _, _, run, _, _, _, registered, _, changed, _⟩ := evaluated
    rw [changed]
    obtain ⟨t, tracked, lasts⟩ := lasting
    cases registered with
    | known => exact ⟨t, tracked, lasts⟩
    | first fresh untracked =>
      rw [untracked] at tracked
      cases tracked
  | @folded s s' same =>
    obtain ⟨t, tracked, lasts⟩ := lasting
    rw [same]
    exact ⟨t.foldAll s.1.pending, by simp [tracked],
      Tracker.lasting_foldAll lasts.roomy (.inl lasts.hasBest)⟩
  | trans _ _ first next => exact next (first lasting)

end Run

namespace Strategy

theorem step_lasting (settings : Settings) (lasting : s.1.Lasting w) :
    Ensures (step settings evaluator) s fun _ s' => s'.1.Lasting w := by
  cases settings with
  | swarm settings =>
    refine (Swarm.step_tracker settings).mono fun _ s' measured => ?_
    obtain ⟨t, tracked, lasts⟩ := lasting
    exact ⟨t.measured, by rw [measured, tracked]; rfl, Tracker.lasting_measured lasts⟩
  | genetic | differential | firefly | teaching =>
    refine (step_moves fun _ h => by cases h).mono fun _ s' stepped => ?_
    obtain ⟨answers, moves⟩ := stepped
    exact moves.lasting lasting

theorem generation_lasting (settings : Settings) (lasting : s.1.Lasting w) :
    Ensures (generation settings evaluator) s fun _ s' => s'.1.Lasting w := by
  simp only [generation, ensures_bind, ensures_update]
  refine (step_lasting settings lasting).mono fun _ s₁ first => ?_
  refine evaluateAll_moves.mono fun _ s₂ evaluated => ?_
  obtain ⟨answers, second⟩ := evaluated
  refine (updateBest_moves evaluator).mono fun _ s₃ third => ?_
  exact third.lasting (second.lasting first)

/-- What a strategy prepares has nothing to do with the number of objectives. -/
theorem prepare_objectives (settings : Settings) :
    Ensures (prepare settings : Search σ Float P Unit) s fun _ s' => s'.1.nObj = s.1.nObj := by
  cases settings with
  | swarm settings =>
    simp only [prepare, Swarm.prepare, ensures_bind, ensures_current, ensures_ofExcept,
      ensures_update, Swarm.remember_eq]
    intro F _
    trivial
  | genetic | differential | firefly | teaching => exact (ensures_pure _).mpr rfl

theorem prepare_lasting (settings : Settings) (lasting : s.1.Lasting w) :
    Ensures (prepare settings : Search σ Float P Unit) s fun _ s' => s'.1.Lasting w :=
  (prepare_tracker settings).mono fun _ s' same => by rwa [Run.Lasting, same]

end Strategy

end BoxSearch
