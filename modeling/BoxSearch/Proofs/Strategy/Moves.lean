import BoxSearch.Proofs.Draw
import BoxSearch.Proofs.Run.Moves
import BoxSearch.Proofs.Strategy.Fidelity

/-!
The moves of every strategy.

What one step of a strategy does is said once for each: what is drawn, what is evaluated, and which
rows are written afterwards. A swarm is the exception that evaluates nothing in its step.
-/

namespace BoxSearch

open Search

variable {σ P : Type} {evaluator : Evaluator σ Float P} {s : Run Float P × Session σ}

/-- One candidate is drawn for every row. They are evaluated, and each takes the place of its row
unless it is worse. -/
inductive Run.Tried (evaluator : Evaluator σ Float P) (s : Run Float P × Session σ)
    (answers : List (Member Float P)) (s' : Run Float P × Session σ) : Prop
  | intro (X F stored : Rows Float) (s₁ s₂ : Run Float P × Session σ)
      (size : X.size = s.1.popSize) (drawn : Redrawn s.1 s₁.1)
      (assessed : Assessed evaluator X F s₁ answers s₂) (known : s.1.F = some stored)
      (accepted : s'.1 = (s₂.1.accept stored (List.range s₂.1.popSize) X F).2)

theorem Run.Tried.moves {answers : List (Member Float P)} {s' : Run Float P × Session σ}
    (h : Run.Tried evaluator s answers s') : Run.Moves evaluator s answers s' := by
  obtain ⟨X, F, stored, s₁, s₂, -, drawn, assessed, -, accepted⟩ := h
  have first := (Run.moves_of_redrawn drawn).trans assessed.moves
  have last : Run.Moves evaluator s₂ [] s' := Run.moves_of_repositions ⟨_, _, _, accepted⟩
  simpa using first.trans last

theorem tried_evaluateAccept {s₁ : Run Float P × Session σ} {X : Rows Float}
    (drawn : X.size = s.1.popSize ∧ Redrawn s.1 s₁.1) :
    Ensures (evaluateAccept evaluator X) s₁ fun _ s' =>
      ∃ answers, Run.Tried evaluator s answers s' := by
  refine (evaluateAccept_assessed X).mono fun _ s' accepted => ?_
  obtain ⟨F, answers, stored, s₂, assessed, known, same⟩ := accepted
  refine ⟨answers, X, F, stored, s₁, s₂, drawn.1, drawn.2, assessed, ?_, same⟩
  obtain ⟨streams, redrawn⟩ := drawn.2
  rw [redrawn] at known
  exact known

theorem Differential.step_tried (settings : Differential.Settings) :
    Ensures (Differential.step settings evaluator) s fun _ s' =>
      ∃ answers, Run.Tried evaluator s answers s' := by
  simp only [Differential.step, ensures_bind, ensures_current]
  refine (perIndividual_ensures _).mono fun trials s₁ drawn => tried_evaluateAccept ⟨?_, drawn.2⟩
  rw [Bounds.size_clipRows, drawn.1]

theorem Teaching.step_tried :
    Ensures (Teaching.step evaluator) s fun _ s' => ∃ answers s₁ answers',
      Run.Tried evaluator s answers s₁ ∧ Run.Tried evaluator s₁ answers' s' := by
  simp only [Teaching.step, Teaching.teacherPhase, Teaching.learnerPhase, ensures_bind,
    ensures_current, ensures_ofExcept]
  refine (perIndividual_ensures _).mono fun taught s₁ drawn => ?_
  refine (tried_evaluateAccept ⟨?_, drawn.2⟩).mono fun _ s₂ tried F _ => ?_
  · rw [Bounds.size_clipRows, drawn.1]
  obtain ⟨answers, first⟩ := tried
  refine (perIndividual_ensures _).mono fun learnt s₃ drawn' => ?_
  refine (tried_evaluateAccept ⟨?_, drawn'.2⟩).mono fun _ s₄ tried' => ?_
  · rw [Bounds.size_clipRows, drawn'.1]
  · obtain ⟨answers', second⟩ := tried'
    exact ⟨answers, s₂, answers', first, second⟩

namespace Firefly

/-- How many candidates a firefly has: one for each brighter one, and one if there is none. -/
def candidateCount (F : Rows Float) (i : Nat) : Nat :=
  max 1 (brighter F (F.row i)).length

theorem yields_candidates (settings : Settings) (run : Run Float P) (F : Rows Float) (i : Nat) :
    (candidates settings run F i).Yields fun own => own.length = candidateCount F i := by
  have drawStep (scale : Float) (span : Row Float) : (do
      return randomStep scale span ((← Draw.times run.dim Draw.unit).map Scalar.ofFloat) :
        Draw (Row Float)).Succeeds :=
    Draw.yields_bind (Draw.succeeds_times Draw.succeeds_unit _) fun _ _ => Draw.yields_pure trivial
  rw [candidateCount]
  unfold candidates
  split
  case h_1 none =>
    rw [none]
    exact Draw.yields_bind (drawStep _ _) fun _ _ => Draw.yields_pure rfl
  case h_2 others some =>
    have count : max 1 (brighter F (F.row i)).length = (brighter F (F.row i)).length :=
      Nat.max_eq_right (List.length_pos_iff.mpr some)
    rw [count]
    apply Draw.yields_mapM
    intro j _
    exact Draw.yields_bind (drawStep _ _) fun _ _ => Draw.yields_pure trivial

theorem succeeds_candidates (settings : Settings) (run : Run Float P) (F : Rows Float) (i : Nat) :
    (candidates settings run F i).Succeeds :=
  (yields_candidates settings run F i).mono fun _ _ => trivial

theorem candidates_drawn (settings : Settings) (run : Run Float P) (F : Rows Float) :
    Ensures (perIndividual (candidates settings run F) : Search σ Float P _) s fun drawn s' =>
      drawn.toList.map List.length = (List.range s.1.popSize).map (candidateCount F) ∧
        Redrawn s.1 s'.1 := by
  refine (perIndividual_drawn _).mono fun drawn s₁ outcome => ?_
  obtain ⟨size, redrawn, -, alone, -⟩ := outcome
  refine ⟨?_, redrawn⟩
  apply List.ext_getElem
  · simp [size]
  · intro i below _
    have inside : i < s.1.popSize := by simpa [size] using below
    obtain ⟨own, here, drew⟩ := alone i inside
    obtain ⟨own', _, drew', count⟩ :=
      yields_candidates settings run F i (s.1.streams.get (.individual i))
    have same : own = own' := by
      rw [drew] at drew'
      cases drew'
      rfl
    have drawnHere : i < drawn.size := by rwa [size]
    have entry : drawn[i] = own := by
      simpa [drawnHere] using here
    simp [entry, same, count]

/-- The candidates of all fireflies are evaluated, and every firefly walks through its own. -/
theorem step_settled (settings : Settings) :
    Ensures (step settings evaluator) s fun _ s' => ∃ C FC F counts answers s₁ s₂,
      counts = (List.range s.1.popSize).map (candidateCount F) ∧ C.size = counts.sum ∧
        Redrawn s.1 s₁.1 ∧ Assessed evaluator C FC s₁ answers s₂ ∧ s.1.F = some F ∧
        s'.1 = settleAll F C FC counts s₂.1 := by
  simp only [step, ensures_bind, ensures_current, ensures_ofExcept, ensures_update]
  intro F known
  refine (candidates_drawn settings s.1 F).mono fun drawn s₁ outcome => ?_
  obtain ⟨counted, redrawn⟩ := outcome
  refine (evaluate_assessed _).mono fun FC s₂ evaluated => ?_
  obtain ⟨answers, assessed⟩ := evaluated
  refine ⟨_, FC, F, drawn.toList.map List.length, answers, s₁, s₂, counted, ?_, redrawn, assessed,
    Run.F_of_fitness known, rfl⟩
  rw [Bounds.size_clipRows]
  simp

/-- Walks write to the population and do nothing else. -/
theorem settleAll_repositions (F C FC : Rows Float) (counts : List Nat) (run : Run Float P) :
    Repositions run (settleAll F C FC counts run) := by
  apply settleAll_induction (motive := Repositions run) (.refl run)
  intro run' i k h _
  exact h.trans ⟨_, _, _, rfl⟩

theorem step_moves (settings : Settings) :
    Ensures (step settings evaluator) s fun _ s' =>
      ∃ answers, Run.Moves evaluator s answers s' := by
  refine (step_settled settings).mono fun _ s' settled => ?_
  obtain ⟨C, FC, F, counts, answers, s₁, s₂, -, -, drawn, assessed, -, same⟩ := settled
  have last : Repositions s₂.1 s'.1 := same ▸ settleAll_repositions F C FC counts s₂.1
  exact ⟨_, ((Run.moves_of_redrawn drawn).trans assessed.moves).trans
    (Run.moves_of_repositions last)⟩

end Firefly

namespace Genetic

/-- The children of a family, in the order in which they are evaluated. -/
def children (families : List (Family Float)) : Rows Float :=
  (families.flatMap fun family => [family.firstChild, family.secondChild]).toArray

/-- There is one family for each pair of a random order. If any of them has a new child then the
children of all of those are evaluated, and the families compete. -/
theorem step_competed (settings : Settings) :
    Ensures (step settings evaluator) s fun _ s' => ∃ order, ∃ families : List (Family Float),
      (s.1.streams.run .driver (Draw.shuffled (Array.range s.1.popSize))).1 = .ok order ∧
      families.map Family.places = pairs order.toList ∧
      ((families.filter (·.isNew s.1.X) = [] ∧ Redrawn s.1 s'.1) ∨ ∃ fresh FC F answers s₁ s₂,
        families.filter (·.isNew s.1.X) = fresh ∧ Redrawn s.1 s₁.1 ∧
        Assessed evaluator (s.1.bounds.clipRows (children fresh)) FC s₁ answers s₂ ∧
        s.1.F = some F ∧
        s'.1 = competeAll fresh (s.1.bounds.clipRows (children fresh)) FC s₂.1) := by
  simp only [step, ensures_bind, ensures_current, ensures_ite, ensures_ofExcept, ensures_update,
    ensures_draw]
  intro order streams shuffled
  refine (breedAll_drawn settings _).mono fun families s₁ h₁ => ?_
  refine ⟨fun none => (log_ensures _).mono fun _ s₂ h₂ => ?_, fun _ => ?_⟩
  · refine ⟨order, families, by rw [shuffled], h₁.1, .inl ⟨by simpa using none, ?_⟩⟩
    rw [h₂.1]
    exact Redrawn.trans ⟨streams, rfl⟩ h₁.2
  · refine (evaluate_assessed _).mono fun FC s₂ evaluated F known => ?_
    obtain ⟨answers, assessed⟩ := evaluated
    have drawn : Redrawn s.1 s₁.1 := Redrawn.trans ⟨streams, rfl⟩ h₁.2
    have stored : s.1.F = some F := by
      obtain ⟨_, same⟩ := drawn
      have kept := assessed.same.population.2.2.1
      rw [Run.F_of_fitness known, same] at kept
      exact kept.symm
    exact ⟨order, families, by rw [shuffled], h₁.1,
      .inr ⟨_, FC, F, answers, s₁, s₂, rfl, drawn, assessed, stored, rfl⟩⟩

/-- Competitions write to the population and do nothing else. -/
theorem competeAll_repositions (families : List (Family Float)) (C FC : Rows Float)
    (run : Run Float P) : Repositions run (competeAll families C FC run) := by
  apply competeAll_induction (motive := Repositions run) (.refl run)
  intro run' i k h _
  exact h.trans ⟨_, _, _, rfl⟩

theorem step_moves (settings : Settings) :
    Ensures (step settings evaluator) s fun _ s' =>
      ∃ answers, Run.Moves evaluator s answers s' := by
  refine (step_competed settings).mono fun _ s' competed => ?_
  obtain ⟨_, _, -, -, ⟨-, drawn⟩ | ⟨fresh, FC, _, _, s₁, s₂, -, drawn, assessed, -, same⟩⟩ := competed
  · exact ⟨[], Run.moves_of_redrawn drawn⟩
  · have last : Repositions s₂.1 s'.1 := same ▸ competeAll_repositions fresh _ FC s₂.1
    exact ⟨_, ((Run.moves_of_redrawn drawn).trans assessed.moves).trans
      (Run.moves_of_repositions last)⟩

end Genetic

namespace Swarm

/-- The run has as many members as before, and the books are the same: so many generations are
completed, so many rows evaluated, and the same ones wait. -/
structure SameCounts (run run' : Run Float P) : Prop where
  popSize : run'.popSize = run.popSize
  marks : run'.stale.size = run.stale.size
  generation : run'.generation = run.generation
  nEval : run'.nEval = run.nEval
  pending : run'.pending = run.pending

theorem SameCounts.trans {run run' run'' : Run Float P} (h : SameCounts run run')
    (h' : SameCounts run' run'') : SameCounts run run'' :=
  ⟨h'.popSize.trans h.popSize, h'.marks.trans h.marks, h'.generation.trans h.generation,
    h'.nEval.trans h.nEval, h'.pending.trans h.pending⟩

theorem prepare_sameCounts :
    Ensures (prepare : Search σ Float P Unit) s fun _ s' => SameCounts s.1 s'.1 := by
  simp only [prepare, ensures_bind, ensures_current, ensures_ofExcept, ensures_update, remember_eq]
  intro F _
  exact ⟨rfl, rfl, rfl, rfl, rfl⟩

theorem measureFront_sameCounts (run : Run Float P) : SameCounts run run.measureFront := by
  obtain ⟨tracker, measured⟩ := measureFront_eq run
  rw [measured]
  exact ⟨rfl, rfl, rfl, rfl, rfl⟩

theorem updateBests_sameCounts :
    Ensures (updateBests : Search σ Float P Unit) s fun _ s' => SameCounts s.1 s'.1 := by
  simp only [updateBests, ensures_bind, ensures_current, ensures_ofExcept, ensures_ite,
    ensures_throw, ensures_update, remember_eq]
  intro bestX _ bestF _ F _
  exact ⟨fun _ => trivial, fun _ => ⟨rfl, rfl, rfl, rfl, rfl⟩⟩

/-- All particles move, so that all of them are to be evaluated. -/
theorem fly_sameCounts (settings : Settings) :
    Ensures (fly settings : Search σ Float P Unit) s fun _ s' => SameCounts s.1 s'.1 ∧
      (s.1.stale.size = s.1.popSize → s'.1.stalePlaces = List.range s.1.popSize) := by
  simp only [fly, ensures_bind, ensures_current, ensures_ofExcept, ensures_ite, ensures_throw,
    ensures_update]
  refine updateBests_sameCounts.mono fun _ s₁ first velocity _ bestX _ => ?_
  refine ⟨fun _ => trivial, fun _ => ?_⟩
  have measured := first.trans (measureFront_sameCounts s₁.1)
  generalize s₁.1.measureFront = run at measured ⊢
  refine (perIndividual_ensures _).mono fun velocity' s₂ outcome => ?_
  obtain ⟨_, streams, drawn⟩ := outcome
  rw [drawn]
  refine ⟨⟨measured.popSize, (size_writeAt _ _ _).trans measured.marks, measured.generation,
    measured.nEval, measured.pending⟩, fun marks => ?_⟩
  rw [← measured.popSize]
  exact @Run.stalePlaces_moveAll _ _ _ (Run.remember { run with streams } .velocity velocity')
    ((measured.marks.trans marks).trans measured.popSize.symm) _

theorem step_sameCounts (settings : Settings) :
    Ensures (step settings : Search σ Float P Unit) s fun _ s' => SameCounts s.1 s'.1 ∧
      (s.1.stale.size = s.1.popSize → s'.1.stalePlaces = List.range s.1.popSize) := by
  rw [step_eq]
  simp only [ensures_bind, ensures_current, ensures_ite]
  refine ⟨fun _ => ?_, fun _ => fly_sameCounts settings⟩
  refine prepare_sameCounts.mono fun _ s₁ first => ?_
  refine (fly_sameCounts settings).mono fun _ s₂ second => ⟨first.trans second.1, fun marks => ?_⟩
  rw [← first.popSize] at marks ⊢
  exact second.2 (first.marks.trans marks)

end Swarm

namespace Strategy

/-- Every strategy but a swarm gets through a step by moves. -/
theorem step_moves {settings : Settings} (other : ∀ swarm, settings ≠ .swarm swarm) :
    Ensures (step settings evaluator) s fun _ s' =>
      ∃ answers, Run.Moves evaluator s answers s' := by
  cases settings with
  | genetic settings => exact Genetic.step_moves settings
  | differential settings =>
    refine (Differential.step_tried settings).mono fun _ _ outcome => ?_
    obtain ⟨answers, tried⟩ := outcome
    exact ⟨answers, tried.moves⟩
  | swarm settings => exact absurd rfl (other settings)
  | firefly settings => exact Firefly.step_moves settings
  | teaching settings =>
    refine Teaching.step_tried.mono fun _ _ tried => ?_
    obtain ⟨answers, s₁, answers', first, second⟩ := tried
    exact ⟨_, first.moves.trans second.moves⟩

/-- A generation that was completed is a step, the evaluation of what the step left stale, and the
fold of what was evaluated. -/
theorem generation_parts {settings : Settings} {s' : Run Float P × Session σ}
    (completed : (generation settings evaluator).run s = (.ok (), s')) : ∃ count s₁ s₂ s₃,
      (step settings evaluator).run s = (.ok (), s₁) ∧
      (evaluateAll evaluator).run s₁ = (.ok count, s₂) ∧ updateBest.run s₂ = (.ok (), s₃) ∧
      s' = (s₃.1.completeGeneration, s₃.2) := by
  rw [generation] at completed
  obtain ⟨_, s₁, stepped, completed⟩ := of_run_bind completed
  obtain ⟨count, s₂, evaluated, completed⟩ := of_run_bind completed
  obtain ⟨_, s₃, folded, completed⟩ := of_run_bind completed
  cases completed
  exact ⟨count, s₁, s₂, s₃, stepped, evaluated, folded, rfl⟩

/-- A step completes no generation, and evaluations only add up. -/
theorem step_counts (settings : Settings) :
    Ensures (step settings evaluator) s fun _ s' =>
      s'.1.generation = s.1.generation ∧ s.1.nEval ≤ s'.1.nEval := by
  cases settings with
  | swarm settings =>
    exact (Swarm.step_sameCounts settings).mono fun _ _ same =>
      ⟨same.1.generation, same.1.nEval.symm.le⟩
  | genetic | differential | firefly | teaching =>
    refine (step_moves fun _ h => by cases h).mono fun _ s' outcome => ?_
    obtain ⟨answers, moves⟩ := outcome
    refine ⟨moves.generation, ?_⟩
    rw [moves.accounts.nEval]
    exact Nat.le_add_right _ _

theorem prepare_counts (settings : Settings) :
    Ensures (prepare settings : Search σ Float P Unit) s fun _ s' =>
      Swarm.SameCounts s.1 s'.1 := by
  cases settings with
  | swarm settings => exact Swarm.prepare_sameCounts
  | genetic | differential | firefly | teaching =>
    exact (ensures_pure _).mpr ⟨rfl, rfl, rfl, rfl, rfl⟩

/-- A generation counts as one, and evaluations only add up. -/
theorem generation_counts (settings : Settings) :
    Ensures (generation settings evaluator) s fun _ s' =>
      s'.1.generation = s.1.generation + 1 ∧ s.1.nEval ≤ s'.1.nEval := by
  simp only [generation, ensures_bind, ensures_update]
  refine (step_counts settings).mono fun _ s₁ first => ?_
  refine evaluateAll_moves.mono fun _ s₂ evaluated => ?_
  obtain ⟨answers, second⟩ := evaluated
  refine (updateBest_moves evaluator).mono fun _ s₃ third => ?_
  have generation := (third.generation.trans second.generation).trans first.1
  have nEval : s₁.1.nEval ≤ s₃.1.nEval := by
    rw [third.accounts.nEval, second.accounts.nEval]
    exact Nat.le_add_right _ _
  exact ⟨congrArg (· + 1) generation, first.2.trans nEval⟩

end Strategy

end BoxSearch
