import BoxSearch.Proofs.Run.Underway

/-!
An evaluation that fails leaves the run as it was.

Whatever can be wrong with the rows, with what the evaluator answers, or with a population that is
taken over is found out before the run is changed for the first time. The number of objectives is
the last thing to be checked, and once it is registered nothing fails any more.
-/

namespace BoxSearch

/-- The run asks for no limit of its front, or for one that a front can have. -/
abbrev Run.LimitFits {α P : Type} [Scalar α] (run : Run α P) : Prop :=
  ∃ limit, Front.limitOf run.frontLimit = .ok limit

namespace Search

variable {σ α P β : Type} [Scalar α] {s : Run α P × Session σ}

/-- If the computation fails, the run is as it was before. -/
abbrev Atomic (m : Search σ α P β) (s : Run α P × Session σ) : Prop :=
  Ends m s (fun s' => s'.1 = s.1) fun _ _ => True

/-- A number of objectives that does not agree is noticed before anything is changed, and a front
with a limit that can be read can always be made. -/
theorem registerWidth_atomic (limit : s.1.LimitFits) (width : Nat) :
    Atomic (registerWidth width) s := by
  by_cases tracked : s.1.tracker.isSome = true
  · simp only [registerWidth, Atomic, ends_bind, ends_current, ends_ite, tracked]
    simp only [forall_const, not_true_eq_false, false_implies, and_true]
    cases s.1.nObj with
    | none => trivial
    | some earlier => simp
  · have untracked : s.1.tracker = none := by simpa using tracked
    by_cases agrees : ∀ m, s.1.nObj = some m → m = (width : Int)
    · exact registerWidth_first untracked agrees (.inr limit)
    · obtain ⟨m, declared, other⟩ : ∃ m, s.1.nObj = some m ∧ m ≠ (width : Int) := by
        simpa using agrees
      simp [registerWidth, Atomic, untracked, declared, other]

variable (evaluator : Evaluator σ α P)

theorem evaluate_atomic (limit : s.1.LimitFits) (X : Rows α) :
    Atomic (evaluate evaluator X) s := by
  simp only [evaluate, Atomic, ends_bind, ends_ite, ends_current, ends_pure, ends_ofExcept,
    ends_update]
  refine ⟨fun _ => trivial, fun _ => ?_⟩
  rw [ends_act]
  split
  case h_2 => rfl
  case h_1 block session answered =>
    refine ⟨fun shape _ => ⟨fun _ _ => ?_, fun _ _ => rfl⟩, fun _ _ => rfl⟩
    apply (registerWidth_atomic (s := (s.1, session)) limit shape.1).imp
    intro _ s₁ _
    exact (ranked_ends shape.2).imp fun _ _ _ => trivial

theorem evaluateArray_atomic (limit : s.1.LimitFits) (X : Tensor α) :
    Atomic (evaluateArray evaluator X) s := by
  simp only [evaluateArray, Atomic, ends_bind, ends_current, ends_ofExcept, implies_true, and_true]
  intro rows _
  exact evaluate_atomic evaluator limit rows

theorem evaluateAll_atomic (limit : s.1.LimitFits) :
    Atomic (evaluateAll evaluator) s := by
  simp only [evaluateAll, Atomic, ends_bind, ends_ite, ends_current, ends_pure, ends_update,
    implies_true, true_and]
  intro _
  exact (evaluate_atomic evaluator limit _).imp fun _ _ _ => trivial

theorem seed_atomic (limit : s.1.LimitFits) (X F : Rows α)
    (width : Nat) : Atomic (seed X F width : Search σ α P Unit) s := by
  simp only [seed, Atomic, ends_bind, ends_current, ends_update, ends_log]
  apply (registerWidth_atomic limit width).imp
  intro _ s₁ _
  exact (ranked_ends F).imp fun _ _ _ => trivial

end Search

namespace Run

open Search

variable {σ P : Type} {evaluator : Evaluator σ Float P} {s s' : Run Float P × Session σ}

/-- The call has rows evaluated or takes over rows that were. -/
def Call.Evaluates : Call σ → Prop
  | evaluate _ | evaluateAll | seed _ _ => True
  | populate _ | setPositions _ _ | replace _ _ _ | completeGeneration | updateBest => False

theorem call_atomic (evaluator : Evaluator σ Float P)
    (limit : s.1.LimitFits) {call : Call σ}
    (evaluates : call.Evaluates) : Atomic (call.perform evaluator) s := by
  cases call with
  | evaluate X =>
    simp only [Call.perform, Atomic, ends_bind, ends_pure]
    exact evaluateArray_atomic evaluator limit X
  | evaluateAll =>
    simp only [Call.perform, Atomic, ends_bind, ends_pure]
    exact evaluateAll_atomic evaluator limit
  | seed X F =>
    simp only [Call.perform, Initial.adopt, Atomic, ends_bind, ends_current, ends_ofExcept,
      implies_true, and_true]
    intro p _
    exact seed_atomic limit p.X p.F p.width
  | populate | setPositions | replace | completeGeneration | updateBest => exact evaluates.elim

/-- Whatever the state of a run, as long as it asks for no limit or for a positive one: a call that
evaluates rows or takes them over, and fails, leaves the whole run as it was. That is the positions,
their fitness and which of them are stale, the number of evaluations, the rows that wait and the
tracker, the declared or detected number of objectives, the count of values that could not be
ranked, and the generation. -/
theorem failed_evaluation_changes_nothing
    (limit : s.1.LimitFits) {call : Call σ} (evaluates : call.Evaluates)
    {e : Error} (failed : (call.perform evaluator).run s = (.error e, s')) : s'.1 = s.1 := by
  have ends := call_atomic evaluator limit evaluates
  rwa [Atomic, Ends, failed] at ends

/-- Answers every row with as many numbers as there are rows. -/
def squareBlocks : Evaluator Unit Float Nat :=
  fun X => return ⟨⟨[X.size, X.size], Array.replicate (X.size * X.size) 0.5⟩, none⟩

/-- A run that has had one row evaluated, with one objective. All of its own three rows are stale. -/
def oneRowDone : Run Float Nat × Session Unit :=
  ((Call.perform squareBlocks (.evaluate ⟨[1, 1], #[0.25]⟩)).run
    (.start .unitInterval 3 none (.int 2) 0, ⟨(), #[]⟩)).2

/-- The three rows would have three objectives, and so the run keeps the single row that waits, its
tracker and its stale rows. Neither is it changed by a population with two objectives or with
positions outside the box. -/
theorem failed_evaluation_changes_nothing_widened :
    oneRowDone.1.nEval = 1 ∧ oneRowDone.1.nObj = some 1 ∧ oneRowDone.1.pending.size = 1 ∧
    ∀ call ∈ ([.evaluateAll, .seed (.ofRows #[#[0.0], #[0.5], #[1.0]])
        (.ofRows #[#[0.0, 1.0], #[0.5, 0.5], #[1.0, 0.0]]),
        .seed (.ofRows #[#[0.0], #[0.5], #[2.0]]) (.ofRows #[#[0.0], #[0.5], #[1.0]])] :
        List (Call Unit)),
      ∃ e s', (call.perform squareBlocks).run oneRowDone = (.error e, s') ∧
        s'.1 = oneRowDone.1 := by
  refine ⟨by decide +kernel, by decide +kernel, by decide +kernel, ?_⟩
  have readable : (Front.limitOf oneRowDone.1.frontLimit).toBool = true := by decide +kernel
  have limit : oneRowDone.1.LimitFits := by
    cases read : Front.limitOf oneRowDone.1.frontLimit with
    | ok l => exact ⟨l, read⟩
    | error e =>
      rw [read] at readable
      cases readable
  have unchanged (call : Call Unit) (evaluates : call.Evaluates)
      (fails : ((call.perform squareBlocks).run oneRowDone).1.toBool = false) :
      ∃ e s', (call.perform squareBlocks).run oneRowDone = (.error e, s') ∧
        s'.1 = oneRowDone.1 := by
    cases failed : (call.perform squareBlocks).run oneRowDone with
    | mk r s' =>
      rw [failed] at fails
      cases r with
      | ok _ => cases fails
      | error e => exact ⟨e, s', rfl, failed_evaluation_changes_nothing limit evaluates failed⟩
  intro call member
  simp only [List.mem_cons, List.not_mem_nil, or_false] at member
  rcases member with rfl | rfl | rfl
  · exact unchanged _ trivial (by decide +kernel)
  · exact unchanged _ trivial (by decide +kernel)
  · exact unchanged _ trivial (by decide +kernel)

end Run

end BoxSearch
