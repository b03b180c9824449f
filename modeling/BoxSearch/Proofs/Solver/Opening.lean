import BoxSearch.Proofs.Solver.Progress
import BoxSearch.Proofs.Solver.Reached
import BoxSearch.Proofs.Strategy.Lasting

/-!
What the opening of a plan leaves.

However the first population comes about, sampled or taken over, it brings a tracker into being: the
first fitness shows how many objectives there are. Once that is folded the run has a best point. If
the evaluator answers with one width, which a population taken over has, too, the run is underway.
-/

namespace BoxSearch

open Search

variable {σ P : Type}

/-- The first points have shown that there are `w` objectives, and wait for the tracker. -/
structure Run.Opened (w : Nat) (run : Run Float P) : Prop where
  objectives : run.nObj = some (w : Int)
  tracked : ∃ t, run.tracker = some t ∧ t.Roomy w
  waiting : ∃ b ∈ run.pending, 0 < b.X.size ∧ b.F.size = b.X.size

section Opened

variable {run registered run' : Run Float P} {w : Nat} {b : Batch Float P}

theorem Run.Registered.opened (h : run.Registered w registered) (untracked : run.tracker = none)
    (filled : 0 < b.X.size) (size : b.F.size = b.X.size) (nObj : run'.nObj = registered.nObj)
    (tracker : run'.tracker = registered.tracker)
    (pending : run'.pending = registered.pending.push b) : run'.Opened w := by
  cases h with
  | known tracked =>
    rw [untracked] at tracked
    cases tracked
  | first fresh _ _ start =>
    refine ⟨nObj, ⟨fresh, tracker, Tracker.roomy_start start⟩, b, ?_, filled, size⟩
    rw [pending]
    exact Array.mem_push_self

/-- Points without any objective cannot be folded. -/
theorem Search.updateBest_opened {s : Run Float P × Session σ} (h : s.1.Opened w) :
    Ensures (updateBest : Search σ Float P Unit) s fun _ s' =>
      w ≠ 0 ∧ s'.1.nObj = some (w : Int) ∧ s'.1.Lasting w := by
  intro _ s' ran
  obtain ⟨t, tracked, roomy⟩ := h.tracked
  have folded := (updateBest_ensures _ _ ran).1
  refine ⟨?_, by rw [folded]; exact h.objectives, t.foldAll s.1.pending, ?_,
    Tracker.lasting_foldAll roomy (.inr h.waiting)⟩
  · rintro rfl
    obtain ⟨b, waits, -⟩ := h.waiting
    have pending : s.1.pending.isEmpty = false := by
      rw [Array.isEmpty_eq_false_iff]
      exact Array.ne_empty_of_mem waits
    rw [updateBest, run_bind, run_current] at ran
    simp only [tracked, h.objectives, pending] at ran
    cases ran
  · rw [folded]
    simp [tracked]

end Opened

namespace Plan

variable {plan : Plan σ} {w : Nat}

theorem seed_opened (large : 0 < plan.settings.popSize) {q : Population.Evaluated Float}
    (sizeX : q.X.size = plan.settings.popSize) (sizeF : q.F.size = plan.settings.popSize)
    (s : Session σ) : Ensures (Search.seed q.X q.F q.width) (plan.start, s) fun _ s' =>
      s'.1.stalePlaces = [] ∧ s'.1.Opened q.width := by
  refine (seed_ensures q.X q.F q.width).mono ?_
  rintro _ s' ⟨run, registered, changed, -⟩
  refine ⟨Run.stalePlaces_eq_nil fun i inside => ?_, ?_⟩
  · rw [changed] at inside ⊢
    simp [inside]
  · refine registered.opened rfl (b := ⟨q.X, Fitness.rankedRows q.F, none⟩) ?_ ?_ ?_ ?_ ?_
    · rwa [sizeX]
    · rw [Fitness.size_rankedRows, sizeX, sizeF]
    all_goals rw [changed]

/-- Any fitness shows how many objectives there are. -/
theorem populated_opened (large : 0 < plan.settings.popSize) (s : Session σ) :
    Ensures (plan.populate >>= fun _ => evaluateAll plan.evaluator) (plan.start, s) fun _ s' =>
      ∃ w, s'.1.Opened w := by
  rw [ensures_bind]
  cases population : plan.population with
  | none =>
    simp only [populate, population]
    refine (Opening.populate_sampled _ rfl).mono fun _ s₁ sampled => ?_
    obtain ⟨sampled, -, -⟩ := sampled
    refine (evaluateAll_ensures plan.evaluator).mono fun _ s₂ outcome => ?_
    have some : ¬s₁.1.stalePlaces.isEmpty = true := by
      rw [sampled.stale, List.isEmpty_iff, List.range_eq_nil]
      omega
    rw [if_neg some] at outcome
    obtain ⟨F, s₃, evaluated, same⟩ := outcome
    obtain ⟨block, width, raw, _, run, -, shaped, -, registered, rated, changed, -⟩ := evaluated
    have size : (s₁.1.bounds.clipRows (staleRows s₁.1)).size = plan.settings.popSize := by
      simp [Bounds.size_clipRows, staleRows, sampled.stale]
    refine ⟨width, registered.opened sampled.untracked
      (b := ⟨s₁.1.bounds.clipRows (staleRows s₁.1), F, block.products⟩) ?_ ?_ ?_ ?_ ?_⟩
    · rwa [size]
    · rw [rated, Fitness.size_rankedRows, Run.size_blockRows shaped]
    all_goals
      rw [same]
      simp only [Run.settle, Run.mark, changed]
  | some q =>
    simp only [populate, population, ensures_bind, ensures_current, ensures_ofExcept]
    intro q' passed
    obtain ⟨-, -, sizeX, sizeF⟩ := Population.of_check passed
    refine (seed_opened large sizeX sizeF s).mono fun _ s₁ seeded => ?_
    refine (evaluateAll_idle seeded.1).mono fun _ s₂ same => ?_
    rw [same]
    exact ⟨q'.width, seeded.2⟩

/-- Once it has begun, a run has a best point and knows how many objectives there are. -/
theorem begin_lasting (large : 0 < plan.settings.popSize) (s : Session σ) :
    Ensures plan.begin (plan.start, s) fun _ s' =>
      ∃ w : Nat, w ≠ 0 ∧ s'.1.nObj = some (w : Int) ∧ s'.1.Lasting w := by
  have shape : plan.begin = (plan.populate >>= fun _ => evaluateAll plan.evaluator) >>=
      fun _ => updateBest := (bind_assoc _ _ _).symm
  rw [shape, ensures_bind]
  refine (populated_opened large s).mono fun _ s₁ first => ?_
  obtain ⟨w, opened⟩ := first
  exact (updateBest_opened opened).mono fun _ s₂ done => ⟨w, done⟩

/-- An evaluator of one width, and a population of that width if there is one, give the run its
shape. -/
theorem opened_assembled (large : 0 < plan.settings.popSize)
    (wide : plan.evaluator.Wide plan.target.bounds.dim w)
    (warm : ∀ q, plan.population = some q → q.Even plan.target.bounds.dim ∧ q.width = w)
    (s : Session σ) :
    Ensures (plan.populate >>= fun _ => evaluateAll plan.evaluator) (plan.start, s) fun _ s' =>
      s'.1.Assembled plan.settings.popSize plan.target.bounds.dim w := by
  rw [ensures_bind]
  cases population : plan.population with
  | none =>
    simp only [populate, population]
    refine (Opening.populate_sampled _ rfl).mono fun _ s₁ sampled => ?_
    exact Run.assembled_of_sampled wide large sampled.1
  | some q =>
    obtain ⟨even, width⟩ := warm q population
    simp only [populate, population, ensures_bind, ensures_current, ensures_ofExcept]
    intro q' passed
    obtain ⟨rfl, sizeX, sizeF⟩ := Population.check_ofRows even passed
    have shapedX : q'.X.Shaped plan.settings.popSize plan.target.bounds.dim :=
      ⟨sizeX, fun x hx => even.X x (Array.mem_toList_iff.mpr hx)⟩
    have shapedF : q'.F.Shaped plan.settings.popSize w :=
      ⟨sizeF, fun f hf => (even.F f (Array.mem_toList_iff.mpr hf)).trans width⟩
    rw [width]
    refine (Run.seed_assembled large rfl shapedX shapedF).mono fun _ s₁ seeded => ?_
    refine (evaluateAll_idle seeded.1).mono fun _ s₂ same => ?_
    rw [same]
    exact seeded.2

end Plan

end BoxSearch
