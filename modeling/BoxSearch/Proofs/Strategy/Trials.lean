import BoxSearch.Proofs.Run.Streams
import BoxSearch.Proofs.Run.Undrawn
import BoxSearch.Strategy.Basic

/-!
A generation of differential evolution in two parts.

First every individual draws a trial from its own stream, and nothing else is drawn. What comes after
that depends on the trials and not on the streams. So a generation is known once it is known what
each individual would draw alone.
-/

namespace BoxSearch.Differential

open Search

variable {σ α P : Type} [Scalar α]

/-- All trials are evaluated and adopted where they are not worse. -/
def adopt (evaluator : Evaluator σ α P) (trials : Rows α) : Search σ α P Nat := do
  evaluateAccept evaluator trials
  evaluateAll evaluator

theorem undrawn_adopt (evaluator : Evaluator σ α P) (trials : Rows α) :
    Undrawn (adopt evaluator trials) :=
  .bind (undrawn_evaluateAccept evaluator trials) fun _ => undrawn_evaluateAll evaluator

theorem generation_eq (settings : Settings) (evaluator : Evaluator σ α P) :
    Strategy.generation (.differential settings) evaluator = (do
      let start ← current
      let trials ← perIndividual (trial settings start)
      let _ ← adopt evaluator (start.bounds.clipRows trials)
      updateBest
      update Run.completeGeneration) := by
  simp only [Strategy.generation, Strategy.step, step, adopt, bind_assoc]

/-- The run at the end of a generation: all that waits has been folded. -/
def concluded (run : Run α P) : Run α P :=
  Run.completeGeneration { run with
    tracker := run.tracker.map (·.foldAll run.pending)
    pending := #[] }

theorem tracker_concluded {run : Run α P} {t : Tracker α P} (h : run.tracker = some t) :
    (concluded run).tracker = some (t.foldAll run.pending) :=
  congrArg (Option.map _) h

/-- What a generation does, given the trials that the individuals draw. For everything else the
streams may be any others. -/
theorem generation_of_trials {settings : Settings} {evaluator : Evaluator σ α P} {run : Run α P}
    {session : Session σ} {trials : Rows α} {streams others : Streams} {count : Nat}
    {mid : Run α P × Session σ} {g : Nat → Random.Generator} (size : trials.size = run.popSize)
    (left : ∀ i < run.popSize, streams.get (.individual i) = g i)
    (drawn : ∀ i < run.popSize, ∀ x, (trial settings run i (g i)).1 = .ok x → x = trials.row i)
    (adopted : (adopt evaluator (run.bounds.clipRows trials)).run
      ({ run with streams := others }, session) = (.ok count, mid)) :
    Ensures (Strategy.generation (.differential settings) evaluator) ({ run with streams }, session)
      fun _ s' => ∃ streams', s'.1 = { concluded mid.1 with streams := streams' } ∧
        ∀ i < run.popSize, streams'.get (.individual i) = (trial settings run i (g i)).2 := by
  rw [generation_eq]
  simp only [ensures_bind, ensures_current, ensures_update]
  refine (perIndividual_drawn _).mono fun found s₁ outcome => ?_
  obtain ⟨count, ⟨streams', redrawn⟩, kept, each, -⟩ := outcome
  have count : found.size = run.popSize := count
  have next (i : Nat) (inside : i < run.popSize) : found[i]? = some (trials.row i) ∧
      streams'.get (.individual i) = (trial settings run i (g i)).2 := by
    obtain ⟨x, here, drew⟩ := each i inside
    have drew : trial settings run i (streams.get (.individual i)) =
      (.ok x, s₁.1.streams.get (.individual i)) := drew
    rw [left i inside, redrawn] at drew
    obtain rfl := drawn i inside x (congrArg Prod.fst drew)
    exact ⟨here, (congrArg Prod.snd drew).symm⟩
  have same : found = trials := by
    apply Array.ext_getElem?
    intro i
    by_cases inside : i < run.popSize
    · have below : i < trials.size := by rwa [size]
      rw [(next i inside).1]
      simp [Rows.row, below]
    · rw [Array.getElem?_eq_none (by omega), Array.getElem?_eq_none (by omega)]
  have state : s₁ = ({ run with streams := streams' }, session) := Prod.ext redrawn kept
  intro _ s₂ ran
  rw [same, state, (undrawn_adopt evaluator _).run adopted streams'] at ran
  cases ran
  refine updateBest_ensures.mono fun _ s₃ folded => ?_
  exact ⟨streams', congrArg Run.completeGeneration folded.1, fun i inside => (next i inside).2⟩

end BoxSearch.Differential
