import BoxSearch.Proofs.Run.Fidelity
import BoxSearch.Proofs.Run.Ledger

/-!
What a strategy may do to a run between two generations.

A strategy moves rows about, has rows evaluated, and has what was evaluated folded into the tracker.
Everything else follows from these moves: how the books go with what was evaluated, and that no
move completes a generation.
-/

namespace BoxSearch

variable {σ P : Type}

/-- A computation gets from one run to another by changing positions, fitness and streams, by
evaluations, and by folds. The list holds what was evaluated on the way, in order, as the evaluator
answered it. -/
inductive Run.Moves (evaluator : Evaluator σ Float P) :
    Run Float P × Session σ → List (Member Float P) → Run Float P × Session σ → Prop
  | quiet {s s' : Run Float P × Session σ} (X : Rows Float) (F : Option (Rows Float))
      (stale : Array Bool) (streams : Streams) (same : s'.1 = { s.1 with X, F, stale, streams }) :
      Moves evaluator s [] s'
  | evaluated {s s' : Run Float P × Session σ} {rows F : Rows Float}
      (filled : rows.isEmpty = false) (evaluated : Evaluated evaluator rows F s s') :
      Moves evaluator s (Call.answers evaluator rows s.2) s'
  | folded {s s' : Run Float P × Session σ} (same : s'.1 =
      { s.1 with tracker := s.1.tracker.map (·.foldAll s.1.pending), pending := #[] }) :
      Moves evaluator s [] s'
  | trans {s s' s'' : Run Float P × Session σ} {before after : List (Member Float P)}
      (first : Moves evaluator s before s') (next : Moves evaluator s' after s'') :
      Moves evaluator s (before ++ after) s''

namespace Run

/-- What waits to be folded, as points. -/
def waiting (run : Run Float P) : List (Member Float P) :=
  run.pending.toList.flatMap Batch.members

variable {evaluator : Evaluator σ Float P} {s s' s'' : Run Float P × Session σ}
  {answers : List (Member Float P)}

theorem answers_eq {rows F : Rows Float} (filled : rows.isEmpty = false)
    (h : Evaluated evaluator rows F s s') :
    ∃ products, Call.answers evaluator rows s.2 = Batch.members ⟨rows, F, products⟩ ∧
      F.size = rows.size := by
  obtain ⟨block, width, raw, ses, run, answered, shaped, paired, registered, rfl, changed, -⟩ := h
  refine ⟨block.products, by simp [Call.answers, filled, answered, shaped], ?_⟩
  rw [Fitness.size_rankedRows, size_blockRows shaped]

/-- What is evaluated waits behind what was waiting before. -/
theorem waiting_evaluated {rows F : Rows Float} (filled : rows.isEmpty = false)
    (h : Evaluated evaluator rows F s s') :
    s'.1.waiting = s.1.waiting ++ Call.answers evaluator rows s.2 := by
  obtain ⟨block, width, raw, ses, run, answered, shaped, paired, registered, rated, changed, -⟩ := h
  have kept : run.pending = s.1.pending := by cases registered <;> rfl
  have answers : Call.answers evaluator rows s.2 = Batch.members ⟨rows, F, block.products⟩ := by
    simp [Call.answers, filled, answered, shaped, rated]
  rw [answers, changed]
  simp [waiting, kept]

theorem length_answers {rows F : Rows Float} (filled : rows.isEmpty = false)
    (h : Evaluated evaluator rows F s s') :
    (Call.answers evaluator rows s.2).length = rows.size := by
  obtain ⟨products, members, -⟩ := answers_eq filled h
  simp [members, Batch.members]

/-- The books go with what was evaluated. -/
theorem Moves.accounts (h : Moves evaluator s answers s') :
    Accounts answers answers.length s.1 s'.1 := by
  induction h with
  | quiet X F stale streams same =>
    rw [same]
    exact accounts_of_sameAccount ⟨rfl, rfl, rfl, rfl, rfl, rfl⟩
  | evaluated filled evaluated =>
    rw [length_answers filled evaluated]
    exact accounts_evaluated filled evaluated
  | @folded s s' same =>
    rw [same]
    exact accounts_folded s.1
  | trans _ _ first next =>
    refine ⟨next.bounds.trans first.bounds, next.frontLimit.trans first.frontLimit, ?_, ?_⟩
    · intro ledger h
      rw [← List.append_assoc]
      exact next.tracked _ (first.tracked _ h)
    · rw [next.nEval, first.nEval, List.length_append, Nat.add_assoc]

/-- No move completes a generation. -/
theorem Moves.generation (h : Moves evaluator s answers s') :
    s'.1.generation = s.1.generation := by
  induction h with
  | quiet X F stale streams same => rw [same]
  | evaluated filled evaluated =>
    obtain ⟨_, _, _, _, run, _, _, _, registered, _, changed, _⟩ := evaluated
    rw [changed]
    cases registered <;> rfl
  | folded same => rw [same]
  | trans _ _ first next => exact next.trans first

/-- A tracker that is shown all that waits has been shown what was evaluated, point by point. -/
theorem Moves.folds (h : Moves evaluator s answers s') {t : Tracker Float P}
    (tracked : s.1.tracker = some t) : ∃ t', s'.1.tracker = some t' ∧
      t'.foldAll s'.1.pending = answers.foldl Tracker.take (t.foldAll s.1.pending) := by
  induction h generalizing t with
  | quiet X F stale streams same =>
    rw [same]
    exact ⟨t, tracked, rfl⟩
  | @evaluated s s' rows F filled evaluated =>
    obtain ⟨block, width, raw, ses, run, answered, shaped, -, registered, rated, changed, -⟩ :=
      evaluated
    have answers : Call.answers evaluator rows s.2 = Batch.members ⟨rows, F, block.products⟩ := by
      simp [Call.answers, filled, answered, shaped, rated]
    subst rated
    have kept : run = s.1 := by
      cases registered with
      | known => rfl
      | first fresh untracked =>
        rw [untracked] at tracked
        cases tracked
    rw [answers, changed, kept]
    exact ⟨t, tracked, Tracker.foldAll_push _ _ (rated_ranked block.products (size_blockRows shaped))⟩
  | @folded s s' same =>
    rw [same]
    exact ⟨t.foldAll s.1.pending, by simp [tracked], rfl⟩
  | trans _ _ first next =>
    obtain ⟨t₁, tracked₁, folds₁⟩ := first tracked
    obtain ⟨t₂, tracked₂, folds₂⟩ := next tracked₁
    exact ⟨t₂, tracked₂, by rw [folds₂, folds₁, List.foldl_append]⟩

/-- What was evaluated is what an honest evaluator answers. -/
theorem Moves.honest {R : Rating Float P} (h : Moves evaluator s answers s')
    (honest : evaluator.Honest R) : ∀ m ∈ answers, R m.x m.f m.product := by
  induction h with
  | quiet | folded => exact nofun
  | @evaluated s s' rows F filled evaluated =>
    obtain ⟨block, width, raw, ses, run, answered, shaped, -⟩ := evaluated
    obtain ⟨size, rated⟩ := honest rows s.2 block ses width raw filled answered shaped
    have members : Call.answers evaluator rows s.2 =
        Batch.members ⟨rows, Fitness.rankedRows raw, block.products⟩ := by
      simp [Call.answers, filled, answered, shaped]
    intro m hm
    rw [members, Batch.members, List.mem_map] at hm
    obtain ⟨k, hk, rfl⟩ := hm
    have inside : k < rows.size := List.mem_range.mp hk
    dsimp only
    rw [Fitness.row_rankedRows (by rwa [size])]
    exact (rated k inside).2
  | trans _ _ first next =>
    intro m hm
    rcases List.mem_append.mp hm with before | after
    · exact first m before
    · exact next m after

theorem Moves.refl (s : Run Float P × Session σ) : Moves evaluator s [] s :=
  .quiet s.1.X s.1.F s.1.stale s.1.streams rfl

theorem moves_of_redrawn (h : Search.Redrawn s.1 s'.1) : Moves evaluator s [] s' := by
  obtain ⟨streams, same⟩ := h
  exact .quiet _ _ _ streams same

theorem moves_of_repositions (h : Search.Repositions s.1 s'.1) : Moves evaluator s [] s' := by
  obtain ⟨X, F, stale, same⟩ := h
  exact .quiet X F stale _ same

end Run

namespace Search

theorem Repositions.refl (run : Run Float P) : Repositions run run :=
  ⟨run.X, run.F, run.stale, rfl⟩

theorem Repositions.trans {run run' run'' : Run Float P} (h : Repositions run run')
    (h' : Repositions run' run'') : Repositions run run'' := by
  obtain ⟨_, _, _, rfl⟩ := h
  obtain ⟨X, F, stale, rfl⟩ := h'
  exact ⟨X, F, stale, rfl⟩

variable {evaluator : Evaluator σ Float P} {s : Run Float P × Session σ}

/-- An evaluation answers one fitness row for each candidate, and leaves the population alone. -/
structure Assessed (evaluator : Evaluator σ Float P) (X F : Rows Float)
    (s : Run Float P × Session σ) (answers : List (Member Float P))
    (s' : Run Float P × Session σ) : Prop where
  moves : Run.Moves evaluator s answers s'
  waiting : s'.1.waiting = s.1.waiting ++ answers
  same : Assesses s.1 s'.1
  size : F.size = X.size
  positions : answers.map (·.x) = (s.1.bounds.clipRows X).toList
  answers : answers.map (·.f) = F.toList

theorem map_x_members (b : Batch Float P) : b.members.map (·.x) = b.X.toList := by
  apply List.ext_getElem
  · simp [Batch.members]
  · intro i _ inside
    have inside : i < b.X.size := by simpa using inside
    simp [Batch.members, Rows.row, inside]

theorem map_f_members {X F : Rows Float} {products : Option (Array (Option P))}
    (size : F.size = X.size) :
    (Batch.members ⟨X, F, products⟩).map (·.f) = F.toList := by
  apply List.ext_getElem
  · simp [Batch.members, size]
  · intro i _ inside
    have inside : i < F.size := by simpa using inside
    simp [Batch.members, Rows.row, inside]

theorem evaluate_assessed (X : Rows Float) :
    Ensures (evaluate evaluator X) s fun F s' => ∃ answers, Assessed evaluator X F s answers s' := by
  refine (evaluate_ensures evaluator X).mono fun F s' outcome => ?_
  by_cases empty : (s.1.bounds.clipRows X).isEmpty = true
  · rw [if_pos empty] at outcome
    have none : X.size = 0 := by simpa [Bounds.clipRows] using empty
    have blank : (s.1.bounds.clipRows X).toList = [] := by simpa using empty
    obtain ⟨rfl, rfl⟩ := outcome
    exact ⟨[], .refl _, (List.append_nil _).symm, ⟨_, _, _, _, _, rfl⟩, none.symm, blank.symm, rfl⟩
  · rw [if_neg empty] at outcome
    have filled : (s.1.bounds.clipRows X).isEmpty = false := by simpa using empty
    obtain ⟨products, members, size⟩ := Run.answers_eq filled outcome
    refine ⟨_, .evaluated filled outcome, Run.waiting_evaluated filled outcome, ?_, ?_, ?_, ?_⟩
    · obtain ⟨_, _, _, _, run, _, _, _, registered, _, changed, _⟩ := outcome
      cases registered <;> exact ⟨_, _, _, _, _, changed⟩
    · rw [size, Bounds.size_clipRows]
    · rw [members, map_x_members]
    · rw [members, map_f_members size]

/-- The answers go with the candidates one by one. -/
theorem Assessed.answer {X F : Rows Float} {answers : List (Member Float P)}
    {s' : Run Float P × Session σ} (h : Assessed evaluator X F s answers s') {k : Nat}
    (inside : k < X.size) : ∃ m, answers[k]? = some m ∧ m.x = s.1.bounds.clip (X.row k) ∧
      m.f = F.row k := by
  have insideF : k < F.size := by rwa [h.size]
  have length : answers.length = X.size := by
    have equal := congrArg List.length h.answers
    simpa [h.size] using equal
  have below : k < answers.length := by rwa [length]
  refine ⟨answers[k], List.getElem?_eq_getElem below, ?_, ?_⟩
  · have entry := congrArg (·[k]?) h.positions
    simpa [below, inside, Bounds.clipRows, Rows.row] using entry
  · have entry := congrArg (·[k]?) h.answers
    simpa [below, insideF, Rows.row] using entry

/-- One candidate per member of the population is evaluated, and then accepted or not. -/
theorem evaluateAccept_assessed (X : Rows Float) :
    Ensures (evaluateAccept evaluator X) s fun _ s' => ∃ F answers stored s₁,
      Assessed evaluator X F s answers s₁ ∧ s.1.F = some stored ∧
        s'.1 = (s₁.1.accept stored (List.range s₁.1.popSize) X F).2 := by
  simp only [evaluateAccept, ensures_bind, ensures_current, ensures_ofExcept, ensures_update]
  refine (evaluate_assessed X).mono fun F s₁ evaluated stored hstored => ?_
  obtain ⟨answers, assessed⟩ := evaluated
  have same := assessed.same.population.2.2.1
  exact ⟨F, answers, stored, s₁, assessed, same ▸ Run.F_of_fitness hstored, rfl⟩

/-- The stale rows are evaluated together, if there are any. -/
theorem evaluateAll_assessed :
    Ensures (evaluateAll evaluator) s fun _ s' => (s.1.stalePlaces = [] ∧ s' = s) ∨
      ∃ F answers s₁, Assessed evaluator (staleRows s.1) F s answers s₁ ∧
        s'.1 = s₁.1.settle s.1.stalePlaces F := by
  simp only [evaluateAll, ensures_bind, ensures_ite, ensures_current, ensures_update, ensures_pure]
  refine ⟨fun none => .inl ⟨by simpa using none, trivial⟩, fun _ => ?_⟩
  refine (evaluate_assessed _).mono fun F s₁ evaluated => ?_
  obtain ⟨answers, assessed⟩ := evaluated
  exact .inr ⟨F, answers, s₁, assessed, rfl⟩

theorem evaluateAll_moves :
    Ensures (evaluateAll evaluator) s fun _ s' => ∃ answers, Run.Moves evaluator s answers s' := by
  refine evaluateAll_assessed.mono fun _ s' outcome => ?_
  rcases outcome with ⟨-, same⟩ | ⟨F, answers, s₁, assessed, same⟩
  · rw [same]
    exact ⟨[], .refl s⟩
  · exact ⟨_, assessed.moves.trans (Run.moves_of_repositions ⟨_, _, _, same⟩)⟩

theorem updateBest_moves (evaluator : Evaluator σ Float P) :
    Ensures (updateBest : Search σ Float P Unit) s fun _ s' => Run.Moves evaluator s [] s' :=
  updateBest_ensures.mono fun _ _ folded => .folded folded.1

end Search

end BoxSearch
