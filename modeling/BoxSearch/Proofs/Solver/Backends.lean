import BoxSearch.Proofs.Evaluation.Parallel
import BoxSearch.Proofs.Solver.Agreement

/-!
Whole runs with evaluation in chunks.

A backend that has batches evaluated in chunks gives the same blocks as evaluation in one piece,
so a run over it has the same history and the same result, or fails where the other one fails.
-/

namespace BoxSearch

open Problem

variable {σ : Type}

/-- For an objective that is a function of the point, evaluation in chunks refines evaluation in
one piece: whatever the number of workers, the chunk length and the order in which the chunks
complete, a batch has the same fitness and the same payloads, and the evaluation fails if and only
if the other one does. A whole run ends in the same phase with the same history and the same
result, and with the same failure unless that is one of an evaluation. -/
theorem Plan.chunks_refine_serial {p : Problem σ} {g : Row Float → Except Raised Value}
    (answers : p.Answers g) (measurable : p.Measurable g) (workers : Nat) (chunk : Option Int) :
    (Backend.threads workers chunk).InChunks (.problem p) workers chunk ∧
    (Backend.jobs workers chunk).InChunks (.problem p) workers chunk ∧
    ∀ backend : Backend σ, backend.InChunks (.problem p) workers chunk →
      (∀ X s,
        let chunked := (backend.evaluate (.problem p) X).run s
        let whole := (Backend.serial.evaluate (.problem p) X).run s
        (∀ block, chunked.1 = .ok block ↔ whole.1 = .ok block) ∧
        ((∃ e, chunked.1 = .error e ∧ e.isEvaluation = true) ↔
          ∃ e, whole.1 = .error e ∧ e.isEvaluation = true) ∧
        chunked.2.user = whole.2.user) ∧
      ∀ (plan : Plan σ) (name name' : String) (owns owns' : Bool), plan.target = .problem p →
        (∀ o ∈ plan.observers, o.Indifferent name name') → ∀ solver s,
        let chunked := (plan.withBackend backend name owns).solve.run (solver, s)
        let whole := (plan.withBackend .serial name' owns').solve.run (solver, s)
        Agreed chunked.1 whole.1 ∧
        chunked.2.1.phase = whole.2.1.phase ∧
        chunked.2.1.history = whole.2.1.history ∧
        chunked.2.1.result = whole.2.1.result ∧
        chunked.2.2.user = whole.2.2.user := by
  refine ⟨Backend.threads_inChunks answers, Backend.jobs_inChunks answers, ?_⟩
  intro backend inChunks
  have agree := Backend.agree_serial answers measurable inChunks
  constructor
  · intro X s chunked whole
    obtain ⟨agreed, user⟩ := agree X s s rfl
    exact ⟨agreed.ok_iff, agreed.evaluation_iff, user⟩
  · intro plan name name' owns owns' target indifferent solver s chunked whole
    have same : plan.SameEvaluation backend .serial := by
      rw [SameEvaluation, target]
      exact agree
    have start : TwinSolvers (solver, s) (solver, s) := ⟨rfl, rfl⟩
    obtain ⟨agreed, twins⟩ := agree_solve same indifferent (solver, s) (solver, s) start
    obtain ⟨phase, history, result⟩ := twins.shows
    exact ⟨agreed, phase, history, result, twins.user⟩

/-- The square of the first coordinate, together with a word. -/
def squareOf (x : Row Float) : Except Raised Value :=
  .ok (.tuple [.float (x.gene 0 * x.gene 0), .text "square"])

/-- Minimises the square of a number between zero and one. -/
def squares : Problem Unit :=
  ⟨.unitInterval, fun x => ExceptT.mk fun s => (squareOf x, s), none, "squares", true⟩

theorem squares_answers : squares.Answers squareOf :=
  fun _ _ => rfl

theorem squares_measurable : squares.Measurable squareOf := by
  refine measurable_of_plain fun x answer product answered => ?_
  cases answered
  exact .float _

/-- Chunks of one row each, of which the last one completes first. -/
def backwards : Backend Unit :=
  .custom "Backwards" fun target X => do
    let completed ← Backend.evaluateChunks target X (Slice.chunks X.size 2 (some 1))
    if X.size ≤ 1 then target.evaluate X else Backend.gather X.size completed.reverse

theorem backwards_inChunks : backwards.InChunks (.problem squares) 2 (some 1) := by
  intro X s
  let chunks := Slice.chunks X.size 2 (some 1)
  refine ⟨chunks.reverse, s.log, chunks.reverse_perm, ?_⟩
  simp only [Backend.outcomeOf_eq squares_answers]
  have chunked := Backend.evaluateChunks_run squares_answers X chunks s
  have run : (backwards.evaluate (.problem squares) X).run s =
      (if X.size ≤ 1 then (Target.problem squares).evaluate X
        else liftM (Backend.gather X.size
          (chunks.map (Backend.chunkResult squares squareOf X)).reverse)).run s := by
    change (Backend.evaluateChunks (.problem squares) X chunks >>= fun completed =>
      if X.size ≤ 1 then (Target.problem squares).evaluate X
      else liftM (Backend.gather X.size completed.reverse)).run s = _
    rw [run_bind, chunked]
  rw [run]
  by_cases small : X.size ≤ 1
  · rw [if_pos small, if_pos (.inr small)]
    exact evaluate_run squares_answers X s
  · rw [if_neg small, if_neg (by omega), ← List.map_reverse]
    exact run_liftM _ s

/-- A run on squares with a class of two and a single generation. -/
def squaresPlan : Plan Unit where
  settings := .teaching ⟨2⟩
  target := .problem squares
  policy := ⟨.never, some 1⟩
  seed := 0
  backend := .serial
  backendName := "serial"
  owns := true
  callback := none
  record := none
  observers := [.progress ⟨1, .int Log.Level.info⟩]
  initializer := none
  frontLimit := none
  population := none
  clock := ExceptT.mk fun s => (.ok 0.0, s)

/-- Three numbers from the unit interval. -/
def threeRows : Rows Float :=
  #[#[0.5], #[0.0], #[1.0]]

/-- The squares of the three numbers, and a word for each. -/
def threeSquares : Block Float Value :=
  ⟨⟨[3, 1], #[0.25, 0.0, 1.0]⟩, some (Array.replicate 3 (some (.text "square")))⟩

theorem squares_blockOf : squares.blockOf squareOf threeRows = .ok threeSquares := by
  have fits : squares.Fits squareOf 1 threeRows := by
    constructor
    · intro n hn
      cases hn
    · intro x _
      exact ⟨_, _, rfl, rfl⟩
  have squared : threeRows.map (squares.fitnessAt squareOf) = #[#[0.25], #[0.0], #[1.0]] := by
    decide +kernel
  have payload (x : Row Float) : squares.productAt squareOf x = some (.text "square") := rfl
  have payloads : threeRows.map (squares.productAt squareOf) =
      Array.replicate 3 (some (.text "square")) := by
    simp only [threeRows, List.map_toArray, List.map_cons, List.map_nil, payload]
    rfl
  have stacked : Tensor.ofRows 1 (#[#[0.25], #[0.0], #[1.0]] : Rows Float) =
      ⟨[3, 1], #[0.25, 0.0, 1.0]⟩ := by
    simp [Tensor.ofRows]
  rw [blockOf_of_fits fits (by decide), squared, payloads, stacked]
  rfl

/-- Three rows whose chunks complete in reverse, and a run in which they do so every time. -/
theorem Plan.chunks_refine_serial_backwards :
    ((backwards.evaluate (.problem squares) threeRows).run ⟨(), #[]⟩).1 = .ok threeSquares ∧
    ∀ solver s,
      ((squaresPlan.withBackend backwards "Backwards" false).solve.run (solver, s)).2.1.history =
        ((squaresPlan.withBackend .serial "serial" true).solve.run (solver, s)).2.1.history := by
  obtain ⟨_, _, refines⟩ := Plan.chunks_refine_serial squares_answers squares_measurable 2 (some 1)
  obtain ⟨batches, runs⟩ := refines backwards backwards_inChunks
  constructor
  · obtain ⟨blocks, _, _⟩ := batches threeRows ⟨(), #[]⟩
    rw [blocks]
    exact (congrArg Prod.fst (evaluate_run squares_answers threeRows _)).trans squares_blockOf
  · intro solver s
    have indifferent : ∀ o ∈ squaresPlan.observers, o.Indifferent "Backwards" "serial" := by
      intro o ho
      rw [List.mem_singleton.mp ho]
      exact Progress.indifferent _ _ _
    obtain ⟨_, _, history, _⟩ :=
      runs squaresPlan "Backwards" "serial" false true rfl indifferent solver s
    exact history

end BoxSearch
