import BoxSearch.Evaluation.Backend
import BoxSearch.Proofs.Evaluation.Chunks
import BoxSearch.Proofs.Evaluation.Serial
import BoxSearch.Proofs.Run.Congruence
import Mathlib.Data.List.Forall2

/-!
Evaluating in chunks is the same as evaluating in one piece.

The chunks may complete in any order. If the batch fits, every chunk fits with the same width, and
the parts are put together to the block of the batch. If it does not, some chunk fails, or all make
blocks of which two differ in width; in both cases the failure is one of an evaluation.
-/

namespace BoxSearch

namespace Part

variable {α P : Type}

/-- A part that lies inside the batch and can be read as rows. -/
def Inside (n : Nat) (part : Part α P) : Prop :=
  ∃ width rows, part.block.fitness.rows? = some (width, rows) ∧ part.start + rows.size ≤ n

/-- Such a part can be placed if and only if it has the width asked for, and the failure of others
is one of an evaluation. -/
theorem place_inside {n : Nat} {part : Part α P} (inside : part.Inside n) (width : Nat)
    (filling : Filling α P) :
    (∀ next, place n width filling part = .ok next →
      ∃ rows, part.block.fitness.rows? = some (width, rows)) ∧
    ∀ e, place n width filling part = .error e → e.isEvaluation = true := by
  obtain ⟨w, rows, hrows, hn⟩ := inside
  rw [place, hrows]
  dsimp only
  by_cases other : (w != width) = true
  · rw [if_pos other]
    constructor
    · intro next h
      cases h
    · intro e h
      cases h
      rfl
  · have same : w = width := by simpa using other
    have fits : ¬(decide (n < part.start + rows.size) && decide (1 < rows.size)) = true := by
      simp [Nat.not_lt.mpr hn]
    rw [if_neg other, if_neg fits, same]
    exact ⟨fun _ _ => ⟨rows, rfl⟩, fun e h => by cases h⟩

theorem foldlM_inside {n : Nat} {parts : List (Part α P)} (inside : ∀ part ∈ parts, part.Inside n)
    (width : Nat) (filling : Filling α P) :
    (∀ last, parts.foldlM (place n width) filling = .ok last →
      ∀ part ∈ parts, ∃ rows, part.block.fitness.rows? = some (width, rows)) ∧
    ∀ e, parts.foldlM (place n width) filling = .error e → e.isEvaluation = true := by
  induction parts generalizing filling with
  | nil =>
    constructor
    · intro _ _ q hq
      cases hq
    · intro e h
      cases h
  | cons part parts ih =>
    have first := place_inside (inside part List.mem_cons_self) width filling
    have insideRest : ∀ q ∈ parts, q.Inside n := fun q hq => inside q (List.mem_cons_of_mem _ hq)
    rw [List.foldlM_cons]
    cases placed : place n width filling part with
    | error e' =>
      constructor
      · intro last h
        cases h
      · intro e h
        cases h
        exact first.2 _ placed
    | ok next =>
      obtain ⟨good, bad⟩ := ih insideRest next
      refine ⟨fun last h q hq => ?_, bad⟩
      rcases List.mem_cons.mp hq with rfl | hq
      · exact first.1 next placed
      · exact good last h q hq

variable [Scalar α]

/-- Parts inside the batch, at least one and in any order, can be put together only if they have one
width, and the failure of others is one of an evaluation. -/
theorem stitch_inside {n : Nat} {parts : List (Part α P)} (nonempty : parts ≠ [])
    (inside : ∀ part ∈ parts, part.Inside n) :
    (∀ block, stitch n parts = .ok block →
      ∃ width, ∀ part ∈ parts, ∃ rows, part.block.fitness.rows? = some (width, rows)) ∧
    ∀ e, stitch n parts = .error e → e.isEvaluation = true := by
  obtain ⟨part, rest, rfl⟩ := List.exists_cons_of_ne_nil nonempty
  obtain ⟨width, rows, hrows, _⟩ := inside part List.mem_cons_self
  have perm : (inOrder (part :: rest)).Perm (part :: rest) := List.mergeSort_perm _ _
  let start : Filling α P := ⟨Array.replicate n (Array.replicate width Scalar.zero), none⟩
  obtain ⟨good, bad⟩ := foldlM_inside (fun q hq => inside q (perm.mem_iff.mp hq)) width start
  have stitched : stitch n (part :: rest) =
      ((inOrder (part :: rest)).foldlM (place n width) start).map fun filled =>
        ⟨.ofRows width filled.rows, filled.products⟩ := by
    rw [stitch, List.head?_cons, Option.bind_some, hrows]
    rfl
  rw [stitched]
  cases filled : (inOrder (part :: rest)).foldlM (place n width) start with
  | error e' =>
    constructor
    · intro block h
      cases h
    · intro e h
      cases h
      exact bad _ filled
  | ok last =>
    constructor
    · intro _ _
      exact ⟨width, fun q hq => good last filled q (perm.mem_iff.mpr hq)⟩
    · intro e h
      cases h

end Part

namespace Backend

open Problem

variable {σ : Type} {p : Problem σ} {g : Row Float → Except Raised Value} {X : Rows Float}

/-- What evaluating one chunk of a batch results in, and where the chunk starts. -/
def chunkResult (p : Problem σ) (g : Row Float → Except Raised Value) (X : Rows Float)
    (s : Slice) : Nat × Except Error (Block Float Value) :=
  (s.start, p.blockOf g (X.extract s.start s.stop))

/-- A chunk of a batch that fits, fits. -/
theorem fits_extract {w : Nat} (fits : p.Fits g w X) (start stop : Nat) :
    p.Fits g w (X.extract start stop) := by
  refine ⟨fits.declared, fun x hx => fits.rows x ?_⟩
  exact Array.mem_toList_iff.mpr (mem_of_mem_extract (Array.mem_toList_iff.mp hx))

/-- The part that a chunk makes, whatever the others make. -/
theorem chunkResult_of_fits {w : Nat} {s : Slice} (fits : p.Fits g w X)
    (nonempty : s.start < s.stop) (inside : s.stop ≤ X.size) :
    (chunkResult p g X s).2 = .ok (Part.ofSlice w (X.map (p.fitnessAt g))
      (if p.returnsProduct then some (X.map (p.productAt g)) else none) s).block := by
  have filled : 0 < (X.extract s.start s.stop).size := by
    rw [Array.size_extract]
    omega
  rw [chunkResult, blockOf_of_fits (fits_extract fits _ _) filled]
  simp only [Part.ofSlice, Array.map_extract]
  cases p.returnsProduct <;> simp

/-- The results of chunks as parts, or the first failure among them. -/
def partsOf (arrived : List (Nat × Except Error (Block Float Value))) :
    Except Error (List (Part Float Value)) :=
  arrived.mapM fun (start, result) => return { start, block := ← result }

theorem gather_eq (n : Nat) (arrived : List (Nat × Except Error (Block Float Value))) :
    gather n arrived = (partsOf arrived >>= Part.stitch n) :=
  rfl

section Tiled

variable {slices order : List Slice}

/-- Results of which all are blocks are as many parts. -/
theorem partsOf_eq_ok {result : Slice → Except Error (Block Float Value)}
    {block : Slice → Block Float Value} (made : ∀ s ∈ slices, result s = .ok (block s)) :
    partsOf (slices.map fun s => (s.start, result s)) =
      .ok (slices.map fun s => ⟨s.start, block s⟩) := by
  rw [partsOf, List.mapM_map]
  refine mapM_eq_ok fun s hs => ?_
  change (result s >>= fun block => Except.ok (⟨s.start, block⟩ : Part _ _)) = _
  rw [made s hs]
  rfl

/-- The slices of even rows are put together to the rows, in whatever order they arrive. -/
theorem gather_ofSlices {n w : Nat} {R : Rows Float} {products : Option (Array (Option Value))}
    {result : Slice → Except Error (Block Float Value)} (nonempty : 0 < n)
    (tiles : Slice.Tiles n 0 slices) (perm : order.Perm slices) (size : R.size = n)
    (even : ∀ r ∈ R.toList, r.size = w) (sizes : ∀ ps, products = some ps → ps.size = n)
    (made : ∀ s ∈ slices, result s = .ok (Part.ofSlice w R products s).block) :
    gather n (order.map fun s => (s.start, result s)) = .ok ⟨.ofRows w R, products⟩ := by
  rw [gather_eq, partsOf_eq_ok fun s hs => made s (perm.mem_iff.mp hs)]
  exact Part.stitch_eq nonempty tiles size even sizes (perm.map (Part.ofSlice w R products))

/-- If the batch fits, the chunks are put together to its block, in whatever order they complete. -/
theorem gather_of_fits {w : Nat} (nonempty : 0 < X.size) (tiles : Slice.Tiles X.size 0 slices)
    (perm : order.Perm slices) (fits : p.Fits g w X) :
    gather X.size (order.map (chunkResult p g X)) = p.blockOf g X := by
  rw [blockOf_of_fits fits nonempty]
  refine gather_ofSlices nonempty tiles perm (Array.size_map ..) (even_fitnessAt fits) ?_ ?_
  · intro ps hps
    by_cases flagged : p.returnsProduct = true
    · rw [if_pos flagged] at hps
      rw [← Option.some.inj hps, Array.size_map]
    · rw [if_neg flagged] at hps
      cases hps
  · intro s hs
    obtain ⟨filled, inside⟩ := Slice.mem_tiles tiles s hs
    exact chunkResult_of_fits fits filled inside

/-- A chunk result that is a block is a part inside the batch. -/
theorem inside_of_chunkResult {s : Slice} {block : Block Float Value} (nonempty : s.start < s.stop)
    (inside : s.stop ≤ X.size) (h : (chunkResult p g X s).2 = .ok block) :
    ∃ w, p.Fits g w (X.extract s.start s.stop) ∧
      block.fitness.rows? = some (w, (X.extract s.start s.stop).map (p.fitnessAt g)) := by
  have size : (X.extract s.start s.stop).size = s.stop - s.start := by
    rw [Array.size_extract]
    omega
  have filled : 0 < (X.extract s.start s.stop).size := by omega
  obtain ⟨w, fits⟩ := fits_of_blockOf filled h
  rw [chunkResult, blockOf_of_fits fits filled] at h
  cases h
  exact ⟨w, fits, Tensor.rows?_ofRows (even_fitnessAt fits)⟩

/-- The parts that chunks make, if all of them make one: a part for every slice, and no other. -/
theorem matched_of_partsOf {parts : List (Part Float Value)} (tiles : Slice.Tiles X.size 0 slices)
    (perm : order.Perm slices) (h : partsOf (order.map (chunkResult p g X)) = .ok parts) :
    (∀ s ∈ slices, ∃ part ∈ parts, ∃ w, p.Fits g w (X.extract s.start s.stop) ∧
      part.block.fitness.rows? = some (w, (X.extract s.start s.stop).map (p.fitnessAt g))) ∧
    ∀ part ∈ parts, part.Inside X.size := by
  rw [partsOf, List.mapM_map] at h
  obtain ⟨forth, back⟩ := matched_of_mapM_eq_ok h
  have made {s : Slice} {part : Part Float Value} (hs : s ∈ slices)
      (h : ((chunkResult p g X s).2 >>= fun block => Except.ok (⟨s.start, block⟩ : Part _ _)) =
        .ok part) :
      part.start = s.start ∧ ∃ w, p.Fits g w (X.extract s.start s.stop) ∧
        part.block.fitness.rows? = some (w, (X.extract s.start s.stop).map (p.fitnessAt g)) := by
    obtain ⟨filled, inside⟩ := Slice.mem_tiles tiles s hs
    cases result : (chunkResult p g X s).2 with
    | error e =>
      rw [result] at h
      cases h
    | ok block =>
      rw [result] at h
      cases h
      exact ⟨rfl, inside_of_chunkResult filled inside result⟩
  constructor
  · intro s hs
    obtain ⟨part, hpart, found⟩ := forth s (perm.mem_iff.mpr hs)
    exact ⟨part, hpart, (made hs found).2⟩
  · intro part hpart
    obtain ⟨s, hs, found⟩ := back part hpart
    obtain ⟨filled, inside⟩ := Slice.mem_tiles tiles s (perm.mem_iff.mp hs)
    obtain ⟨start, w, _, rows⟩ := made (perm.mem_iff.mp hs) found
    refine ⟨w, _, rows, ?_⟩
    rw [start, Array.size_map, Array.size_extract]
    omega

/-- Chunks can be put together only if the batch fits. -/
theorem fits_of_gather {block : Block Float Value} (nonempty : 0 < X.size)
    (tiles : Slice.Tiles X.size 0 slices) (perm : order.Perm slices)
    (h : gather X.size (order.map (chunkResult p g X)) = .ok block) : ∃ w, p.Fits g w X := by
  rw [gather_eq] at h
  cases made : partsOf (order.map (chunkResult p g X)) with
  | error e =>
    rw [made] at h
    cases h
  | ok parts =>
    rw [made] at h
    obtain ⟨matched, inside⟩ := matched_of_partsOf tiles perm made
    obtain ⟨s, hs, _, _⟩ := Slice.exists_slice tiles (Nat.zero_le 0) nonempty
    obtain ⟨part, hpart, _⟩ := matched s hs
    obtain ⟨w, same⟩ := (Part.stitch_inside (List.ne_nil_of_mem hpart) inside).1 block h
    -- every chunk fits, and with the common width of the parts
    have fits : ∀ s ∈ slices, p.Fits g w (X.extract s.start s.stop) := by
      intro s hs
      obtain ⟨part, hpart, w', fits, rows⟩ := matched s hs
      obtain ⟨rows', hrows'⟩ := same part hpart
      rw [rows] at hrows'
      cases hrows'
      exact fits
    refine ⟨w, (fits s hs).declared, fun x hx => ?_⟩
    obtain ⟨i, hi, rfl⟩ := List.mem_iff_getElem.mp hx
    have below : i < X.size := by simpa using hi
    obtain ⟨s, hs, above, before⟩ := Slice.exists_slice tiles (Nat.zero_le i) below
    refine (fits s hs).rows _ (List.mem_iff_getElem.mpr ⟨i - s.start, ?_, ?_⟩)
    · rw [Array.length_toList, Array.size_extract]
      omega
    · simp [Nat.add_sub_cancel' above]

/-- Chunks that cannot be put together fail for the sake of an evaluation. -/
theorem gather_error (measurable : p.Measurable g) {e : Error} (nonempty : 0 < X.size)
    (tiles : Slice.Tiles X.size 0 slices) (perm : order.Perm slices)
    (h : gather X.size (order.map (chunkResult p g X)) = .error e) : e.isEvaluation = true := by
  rw [gather_eq] at h
  cases made : partsOf (order.map (chunkResult p g X)) with
  | error e' =>
    rw [made] at h
    cases h
    rw [partsOf, List.mapM_map] at made
    obtain ⟨s, _, failed⟩ := exists_of_mapM_eq_error made
    cases result : p.blockOf g (X.extract s.start s.stop) with
    | error e' =>
      simp only [Function.comp, chunkResult, result] at failed
      cases failed
      exact blockOf_error measurable result
    | ok block =>
      simp only [Function.comp, chunkResult, result] at failed
      cases failed
  | ok parts =>
    rw [made] at h
    obtain ⟨matched, inside⟩ := matched_of_partsOf tiles perm made
    obtain ⟨s, hs, _, _⟩ := Slice.exists_slice tiles (Nat.zero_le 0) nonempty
    obtain ⟨part, hpart, _⟩ := matched s hs
    exact (Part.stitch_inside (List.ne_nil_of_mem hpart) inside).2 e h

/-- Evaluating a batch in chunks that complete in any order comes to the same as evaluating it in
one piece. -/
theorem gather_agreed (measurable : p.Measurable g) (nonempty : 0 < X.size)
    (tiles : Slice.Tiles X.size 0 slices) (perm : order.Perm slices) :
    Agreed (gather X.size (order.map (chunkResult p g X))) (p.blockOf g X) := by
  cases whole : p.blockOf g X with
  | ok block =>
    obtain ⟨w, fits⟩ := fits_of_blockOf nonempty whole
    rw [gather_of_fits nonempty tiles perm fits, whole]
    exact .ok block
  | error e =>
    have second : e.isEvaluation = true := blockOf_error measurable whole
    cases gathered : gather X.size (order.map (chunkResult p g X)) with
    | error e' => exact .evaluation (gather_error measurable nonempty tiles perm gathered) second
    | ok block =>
      obtain ⟨w, fits⟩ := fits_of_gather nonempty tiles perm gathered
      rw [blockOf_of_fits fits nonempty] at whole
      cases whole

end Tiled

/-- What evaluating a batch in one piece results in. -/
def outcomeOf (target : Target σ) (s : Session σ) (X : Rows Float) :
    Except Error (Block Float Value) :=
  ((target.evaluate X).run s).1

/-- The backend has a batch evaluated in chunks, each of them once, and gathers the results in the
order in which the chunks complete, which may be another one at every call. One worker or one row
needs no chunks. What the backend writes to the log is its own affair. -/
def InChunks (backend : Backend σ) (target : Target σ) (workers : Nat) (chunk : Option Int) :
    Prop :=
  ∀ X s, ∃ (order : List Slice) (log : Array Log.Event),
    order.Perm (Slice.chunks X.size workers chunk) ∧
    (backend.evaluate target X).run s =
      (if workers ≤ 1 ∨ X.size ≤ 1 then outcomeOf target s X
        else gather X.size (order.map fun slice =>
          (slice.start, outcomeOf target s (X.extract slice.start slice.stop))),
       { s with log })

section Pure

variable {workers : Nat} {chunk : Option Int}

theorem outcomeOf_eq (answers : p.Answers g) (s : Session σ) (X : Rows Float) :
    outcomeOf (.problem p) s X = p.blockOf g X :=
  congrArg Prod.fst (evaluate_run answers X s)

/-- Evaluating a batch leaves the user's state and the log alone. -/
def Quiet (target : Target σ) : Prop :=
  ∀ X s, ((target.evaluate X).run s).2 = s

theorem quiet_of_answers (answers : p.Answers g) : Quiet (.problem p) := by
  intro X s
  exact congrArg Prod.snd (evaluate_run answers X s)

/-- Evaluating chunks one after another leaves the result of each, which is that of evaluating the
chunk in some session. Whatever every evaluation keeps of a session is true of all of these. -/
theorem evaluateChunks_results {target : Target σ} {J : Session σ → Prop}
    (kept : ∀ X s, J s → J ((target.evaluate X).run s).2) (X : Rows Float) (slices : List Slice)
    {s : Session σ} (h : J s) :
    ∃ results s', (evaluateChunks target X slices).run s = (.ok results, s') ∧ J s' ∧
      List.Forall₂ (fun slice r => ∃ t, J t ∧
        r = (slice.start, outcomeOf target t (X.extract slice.start slice.stop))) slices results := by
  have one (slice : Slice) (t : Session σ) :
      (do
        let result ← Act.outcome (target.evaluate (X.extract slice.start slice.stop))
        return (slice.start, result) : Act σ _).run t =
      (.ok (slice.start, outcomeOf target t (X.extract slice.start slice.stop)),
        ((target.evaluate (X.extract slice.start slice.stop)).run t).2) := rfl
  unfold evaluateChunks
  induction slices generalizing s with
  | nil => exact ⟨[], s, rfl, h, .nil⟩
  | cons slice slices ih =>
    obtain ⟨results, s', run, after, rest⟩ := ih (kept (X.extract slice.start slice.stop) s h)
    refine ⟨_ :: results, s', ?_, after, .cons ⟨s, h, rfl⟩ rest⟩
    rw [List.mapM_cons, run_bind, one]
    dsimp only
    rw [run_bind, run]
    rfl

/-- An evaluation that leaves the session alone comes to the same for every chunk. -/
theorem evaluateChunks_quiet {target : Target σ} (quiet : Quiet target) (X : Rows Float)
    (slices : List Slice) (s : Session σ) :
    (evaluateChunks target X slices).run s =
      (.ok (slices.map fun slice =>
        (slice.start, outcomeOf target s (X.extract slice.start slice.stop))), s) := by
  obtain ⟨results, s', run, rfl, each⟩ := evaluateChunks_results (J := (· = s))
    (fun X t same => (quiet X t).trans same) X slices rfl
  rw [run]
  clear run
  congr 2
  induction each with
  | nil => rfl
  | cons first _ ih =>
    obtain ⟨t, rfl, rfl⟩ := first
    rw [ih, List.map_cons]

theorem evaluateChunks_run (answers : p.Answers g) (X : Rows Float) (slices : List Slice)
    (s : Session σ) :
    (evaluateChunks (.problem p) X slices).run s =
      (.ok (slices.map (chunkResult p g X)), s) := by
  rw [evaluateChunks_quiet (quiet_of_answers answers)]
  simp only [outcomeOf_eq answers]
  rfl

theorem evaluateWith_inChunks {target : Target σ} (quiet : Quiet target) (X : Rows Float)
    (s : Session σ) :
    ∃ (order : List Slice) (log : Array Log.Event),
      order.Perm (Slice.chunks X.size workers chunk) ∧
      (evaluateWith workers chunk target X).run s =
        (if workers ≤ 1 ∨ X.size ≤ 1 then outcomeOf target s X
          else gather X.size (order.map fun slice =>
            (slice.start, outcomeOf target s (X.extract slice.start slice.stop))),
         { s with log }) := by
  refine ⟨Slice.chunks X.size workers chunk, s.log, .refl _, ?_⟩
  simp only [evaluateWith, Bool.or_eq_true, decide_eq_true_eq]
  by_cases small : workers ≤ 1 ∨ X.size ≤ 1
  · rw [if_pos small, if_pos small]
    exact Prod.ext rfl (quiet X s)
  · rw [if_neg small, if_neg small, run_bind, evaluateChunks_quiet quiet]
    exact run_liftM _ s

theorem threads_inChunks (answers : p.Answers g) :
    (threads workers chunk).InChunks (.problem p) workers chunk :=
  evaluateWith_inChunks (quiet_of_answers answers)

theorem jobs_inChunks (answers : p.Answers g) :
    (jobs workers chunk).InChunks (.problem p) workers chunk :=
  evaluateWith_inChunks (quiet_of_answers answers)

/-- Evaluating in chunks cannot be told from evaluating in one piece. -/
theorem agree_serial {backend : Backend σ} (answers : p.Answers g) (measurable : p.Measurable g)
    (chunked : backend.InChunks (.problem p) workers chunk) :
    Evaluator.Agrees (backend.evaluate (.problem p)) (serial.evaluate (.problem p)) := by
  intro X s s' same
  obtain ⟨order, log, perm, run⟩ := chunked X s
  have whole : (serial.evaluate (.problem p) X).run s' = (p.blockOf g X, s') :=
    evaluate_run answers X s'
  rw [AgreeFrom, run, whole]
  refine ⟨?_, same⟩
  simp only [outcomeOf_eq answers]
  by_cases small : workers ≤ 1 ∨ X.size ≤ 1
  · rw [if_pos small]
    exact .refl _
  · rw [if_neg small]
    exact gather_agreed measurable (by omega) (Slice.chunks_tiles _ _ _) perm

/-- Whatever blocks the backend gives are those of evaluation in one piece. -/
def ReturnsSerial (backend : Backend σ) (target : Target σ) : Prop :=
  ∀ X s block, ((backend.evaluate target X).run s).1 = .ok block →
    ((serial.evaluate target X).run s).1 = .ok block

theorem serial_returnsSerial (target : Target σ) : (serial : Backend σ).ReturnsSerial target :=
  fun _ _ _ h => h

/-- Chunks that were put together make the block of the whole batch. -/
theorem returnsSerial_of_inChunks {backend : Backend σ} (answers : p.Answers g)
    (chunked : backend.InChunks (.problem p) workers chunk) :
    backend.ReturnsSerial (.problem p) := by
  intro X s block h
  obtain ⟨order, log, perm, run⟩ := chunked X s
  have whole : ((serial.evaluate (.problem p) X).run s).1 = p.blockOf g X :=
    outcomeOf_eq answers s X
  rw [run] at h
  simp only [outcomeOf_eq answers] at h
  rw [whole]
  by_cases small : workers ≤ 1 ∨ X.size ≤ 1
  · rw [if_pos small] at h
    exact h
  · rw [if_neg small] at h
    have nonempty : 0 < X.size := by omega
    have tiles := Slice.chunks_tiles X.size workers chunk
    obtain ⟨w, fits⟩ := fits_of_gather nonempty tiles perm h
    rw [← gather_of_fits nonempty tiles perm fits]
    exact h

end Pure

end Backend

end BoxSearch
