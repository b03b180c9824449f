import BoxSearch.Proofs.Evaluation.Stitching
import BoxSearch.Proofs.Strategy.Agreement

/-!
Objects that answer a batch row by row.

An object that is not a problem evaluates a batch as a whole. It may answer one number for each
vector, in an array with one axis, or one row for each, in an array with two. In one piece, numbers
are taken for rows of one. Chunks cannot be put together from numbers, so objects that answer those
fail wherever a batch is cut, and only objects that answer rows are the same on every backend.
-/

namespace BoxSearch

variable {σ : Type}

/-- What an object answers for each vector: a number, or a row of a fixed width. -/
inductive RowAnswer where
  | number (f : Row Float → Float)
  | vector (width : Nat) (f : Row Float → Row Float) (even : ∀ x, (f x).size = width)

namespace RowAnswer

def isVector : RowAnswer → Bool
  | number _ => false
  | vector .. => true

/-- The answer for a batch: an array with one axis of numbers, or with two of rows. -/
def toTensor : RowAnswer → Rows Float → Tensor Float
  | number f, X => ⟨[X.size], X.map f⟩
  | vector width f _, X => .ofRows width (X.map f)

/-- The evaluation is pure. It answers every batch of vectors of dimension `d`, row by row. -/
structure Describes (answer : RowAnswer) (d : Nat)
    (evaluate : Rows Float → Call σ (Tensor Float)) : Prop where
  quiet (X : Rows Float) (user : σ) : ((evaluate X).run user).2 = user
  total (X : Rows Float) (user : σ) : 0 < X.size → (∀ x ∈ X, x.size = d) →
    (evaluate X).run user = (.ok (answer.toTensor X), user)

end RowAnswer

namespace Backend

variable {type : String} {bounds : Bounds Float} {nObj : Option Int}
variable {evaluate : Rows Float → Call σ (Tensor Float)} {answer : RowAnswer} {d : Nat}
variable {X : Rows Float}

/-- An object answers what its evaluation does, or fails as the evaluation did. -/
theorem evaluator_run (X : Rows Float) (s : Session σ) :
    ((Target.evaluator type bounds nObj evaluate).evaluate X).run s =
      (match ((evaluate X).run s.user).1 with
        | .ok t => .ok ⟨t, none⟩
        | .error failure => .error (.raised failure),
       { s with user := ((evaluate X).run s.user).2 }) := by
  have asked : (Act.attempt (evaluate X)).run s =
      (.ok ((evaluate X).run s.user).1, { s with user := ((evaluate X).run s.user).2 }) := rfl
  rw [Target.evaluate, run_bind, Act.call, run_bind, asked]
  cases ((evaluate X).run s.user).1 <;> rfl

theorem quiet_of_describes (h : answer.Describes d evaluate) :
    Quiet (.evaluator type bounds nObj evaluate) := by
  intro X s
  rw [evaluator_run, h.quiet]

theorem run_of_describes (h : answer.Describes d evaluate) (filled : 0 < X.size)
    (each : ∀ x ∈ X, x.size = d) (s : Session σ) :
    ((Target.evaluator type bounds nObj evaluate).evaluate X).run s =
      (.ok ⟨answer.toTensor X, none⟩, s) := by
  rw [evaluator_run, h.total X s.user filled each]

/-- What evaluating a slice of a batch results in, which is never empty. -/
theorem outcomeOf_slice (h : answer.Describes d evaluate) (each : ∀ x ∈ X, x.size = d)
    {slices : List Slice} (tiles : Slice.Tiles X.size 0 slices) (s : Session σ) :
    ∀ slice ∈ slices, outcomeOf (.evaluator type bounds nObj evaluate) s
        (X.extract slice.start slice.stop) =
      .ok ⟨answer.toTensor (X.extract slice.start slice.stop), none⟩ := by
  intro slice hslice
  obtain ⟨nonempty, inside⟩ := Slice.mem_tiles tiles slice hslice
  have filled : 0 < (X.extract slice.start slice.stop).size := by
    rw [Array.size_extract]
    omega
  have among : ∀ x ∈ X.extract slice.start slice.stop, x.size = d :=
    fun x hx => each x (mem_of_mem_extract hx)
  exact congrArg Prod.fst (run_of_describes h filled among s)

/-- Rows are put together to the rows of the batch. -/
theorem gather_vector {width : Nat} {f : Row Float → Row Float} {even : ∀ x, (f x).size = width}
    (h : (RowAnswer.vector width f even).Describes d evaluate) (filled : 0 < X.size)
    (each : ∀ x ∈ X, x.size = d) {slices order : List Slice}
    (tiles : Slice.Tiles X.size 0 slices) (perm : order.Perm slices) (s : Session σ) :
    gather X.size (order.map fun slice =>
        (slice.start, outcomeOf (.evaluator type bounds nObj evaluate) s
          (X.extract slice.start slice.stop))) =
      .ok ⟨(RowAnswer.vector width f even).toTensor X, none⟩ := by
  refine gather_ofSlices filled tiles perm (Array.size_map ..) ?_ ?_ fun slice hslice => ?_
  · intro r hr
    obtain ⟨x, -, rfl⟩ := Array.mem_map.mp (Array.mem_toList_iff.mp hr)
    exact even x
  · rintro products ⟨⟩
  · rw [outcomeOf_slice h each tiles s slice hslice]
    simp [RowAnswer.toTensor, Part.ofSlice, Array.map_extract]

/-- Numbers are not put together, however few the chunks are. -/
theorem gather_number {f : Row Float → Float} (h : (RowAnswer.number f).Describes d evaluate)
    (each : ∀ x ∈ X, x.size = d) {slices order : List Slice}
    (tiles : Slice.Tiles X.size 0 slices) (perm : order.Perm slices) (s : Session σ) :
    gather X.size (order.map fun slice =>
        (slice.start, outcomeOf (.evaluator type bounds nObj evaluate) s
          (X.extract slice.start slice.stop))) = .error (.fault .index) := by
  rw [gather_eq, partsOf_eq_ok fun slice hslice =>
    outcomeOf_slice h each tiles s slice (perm.mem_iff.mp hslice)]
  cases order <;> rfl

variable {workers : Nat} {chunk : Option Int} {backend : Backend σ}

/-- A backend that evaluates in chunks answers rows as the object does by itself, and numbers too as
long as it needs no chunks. -/
theorem run_of_inChunks (h : answer.Describes d evaluate) (filled : 0 < X.size)
    (each : ∀ x ∈ X, x.size = d)
    (chunked : backend.InChunks (.evaluator type bounds nObj evaluate) workers chunk)
    (rows : answer.isVector = true ∨ workers ≤ 1 ∨ X.size ≤ 1) (s : Session σ) :
    ∃ log, (backend.evaluate (.evaluator type bounds nObj evaluate) X).run s =
      (.ok ⟨answer.toTensor X, none⟩, { s with log }) := by
  obtain ⟨order, log, perm, run⟩ := chunked X s
  refine ⟨log, ?_⟩
  rw [run]
  by_cases small : workers ≤ 1 ∨ X.size ≤ 1
  · rw [if_pos small, outcomeOf, run_of_describes h filled each]
  · rw [if_neg small]
    cases answer with
    | number f => simp [RowAnswer.isVector, small] at rows
    | vector width f even =>
      rw [gather_vector h filled each (Slice.chunks_tiles _ _ _) perm s]

theorem agreeFrom_serial (h : answer.Describes d evaluate) (filled : 0 < X.size)
    (each : ∀ x ∈ X, x.size = d)
    (chunked : backend.InChunks (.evaluator type bounds nObj evaluate) workers chunk)
    (rows : answer.isVector = true ∨ workers ≤ 1 ∨ X.size ≤ 1) (s : Session σ) :
    AgreeFrom SameUser (backend.evaluate (.evaluator type bounds nObj evaluate) X)
      ((serial : Backend σ).evaluate (.evaluator type bounds nObj evaluate) X) s s := by
  obtain ⟨log, run⟩ := run_of_inChunks h filled each chunked rows s
  change AgreeFrom SameUser _ ((Target.evaluator type bounds nObj evaluate).evaluate X) s s
  rw [AgreeFrom, run, run_of_describes h filled each]
  exact ⟨.refl _, rfl⟩

theorem run_of_inChunks_number {f : Row Float → Float}
    (h : (RowAnswer.number f).Describes d evaluate) (each : ∀ x ∈ X, x.size = d)
    (chunked : backend.InChunks (.evaluator type bounds nObj evaluate) workers chunk)
    (several : 1 < workers) (large : 1 < X.size) (s : Session σ) :
    ∃ log, (backend.evaluate (.evaluator type bounds nObj evaluate) X).run s =
      (.error (.fault .index), { s with log }) := by
  obtain ⟨order, log, perm, run⟩ := chunked X s
  have cut : ¬(workers ≤ 1 ∨ X.size ≤ 1) := by omega
  refine ⟨log, ?_⟩
  rw [run, if_neg cut, gather_number h each (Slice.chunks_tiles _ _ _) perm s]

/-- An object that answers row by row is the same on a backend that evaluates in chunks as in one
piece, as long as it answers rows, or the batch needs no chunks. Where it answers numbers and the
batch is cut, evaluation fails, and the run is left as it was. -/
theorem row_wise_objects_on_backends (type : String) (bounds : Bounds Float) (nObj : Option Int)
    (evaluate : Rows Float → Call σ (Tensor Float)) (answer : RowAnswer)
    (h : answer.Describes bounds.dim evaluate) (workers : Nat) (chunk : Option Int) :
    let target : Target σ := .evaluator type bounds nObj evaluate
    (threads workers chunk).InChunks target workers chunk ∧
    (jobs workers chunk).InChunks target workers chunk ∧
    ∀ backend : Backend σ, backend.InChunks target workers chunk →
      ∀ (X : Rows Float) (s : Run Float Value × Session σ), s.1.bounds = bounds →
        let chunked := (Search.evaluate (backend.evaluate target) X).run s
        let whole := (Search.evaluate ((serial : Backend σ).evaluate target) X).run s
        (answer.isVector = true ∨ workers ≤ 1 ∨ X.size ≤ 1 →
          Agreed chunked.1 whole.1 ∧ chunked.2.1 = whole.2.1 ∧
            chunked.2.2.user = whole.2.2.user) ∧
        (answer.isVector = false → 1 < workers → 1 < X.size →
          chunked.1 = .error (.fault .index) ∧ chunked.2.1 = s.1 ∧
            chunked.2.2.user = s.2.user) := by
  intro target
  have quiet : Quiet target := quiet_of_describes h
  refine ⟨evaluateWith_inChunks quiet, evaluateWith_inChunks quiet, ?_⟩
  rintro backend inChunks X s rfl chunked whole
  have size : (s.1.bounds.clipRows X).size = X.size := Bounds.size_clipRows _ _
  have each : ∀ x ∈ s.1.bounds.clipRows X, x.size = s.1.bounds.dim :=
    (Rows.shaped_clipRows _ _).each
  constructor
  · intro rows
    have same : AgreeFrom Twins (Search.evaluate (backend.evaluate target) X)
        (Search.evaluate ((serial : Backend σ).evaluate target) X) s s := by
      refine Search.agreeFrom_evaluate books_equalBooks (twins_iff.mpr ⟨rfl, rfl⟩) fun filled => ?_
      rw [← size] at filled rows
      exact agreeFrom_serial h filled each inChunks rows s.2
    obtain ⟨results, twins⟩ := same
    obtain ⟨run, user⟩ := twins_iff.mp twins
    exact ⟨results, run.symm, user⟩
  · intro numbers several large
    cases answer with
    | vector width f even => cases numbers
    | number f =>
      obtain ⟨log, run⟩ : ∃ log, (backend.evaluate target (s.1.bounds.clipRows X)).run s.2 = _ :=
        run_of_inChunks_number h each inChunks several (by omega) s.2
      have failed : chunked = _ :=
        Search.evaluate_rejects (by omega) (congrArg (·.1 >>= Search.blockRows X.size) run)
      rw [run] at failed
      rw [failed]
      exact ⟨rfl, rfl, rfl⟩

/-- Answers the first coordinate of each vector, as a number or as a row. -/
def coordinates (answer : RowAnswer) : Target Unit :=
  .evaluator "Coordinates" .unitInterval none fun X => return answer.toTensor X

def asNumber : RowAnswer :=
  .number fun x => x.gene 0

def asRow : RowAnswer :=
  .vector 1 (fun x => #[x.gene 0]) fun _ => rfl

/-- An object without a state that answers as it is described. -/
theorem describes_return (answer : RowAnswer) (d : Nat) :
    answer.Describes d fun X => (return answer.toTensor X : Call Unit (Tensor Float)) :=
  ⟨fun _ _ => rfl, fun _ _ _ _ => rfl⟩

def twoVectors : Rows Float :=
  #[#[0.25], #[0.75]]

/-- Two vectors for two workers: as rows, the coordinates come back as they do in one piece; as
numbers, they do not. -/
theorem row_wise_objects_on_backends_coordinates :
    Agreed
        ((Search.evaluate ((threads 2 none).evaluate (coordinates asRow)) twoVectors).run unrated).1
        ((Search.evaluate ((serial : Backend Unit).evaluate (coordinates asRow)) twoVectors).run
          unrated).1 ∧
      ((Search.evaluate ((threads 2 none).evaluate (coordinates asNumber)) twoVectors).run
        unrated).1 = .error (.fault .index) := by
  obtain ⟨rowsInChunks, -, rows⟩ := row_wise_objects_on_backends "Coordinates" .unitInterval none _
    asRow (describes_return asRow _) 2 none
  obtain ⟨numbersInChunks, -, numbers⟩ := row_wise_objects_on_backends "Coordinates" .unitInterval
    none _ asNumber (describes_return asNumber _) 2 none
  obtain ⟨same, -⟩ := (rows _ rowsInChunks twoVectors unrated rfl).1 (.inl rfl)
  obtain ⟨fails, -⟩ := (numbers _ numbersInChunks twoVectors unrated rfl).2 rfl (by decide)
    (by decide)
  exact ⟨same, fails⟩

/-- The coordinates of two vectors as numbers, the fitness of both in one piece. Two workers cannot
put them together. -/
theorem numbers_fail_in_chunks :
    ((Search.evaluate ((serial : Backend Unit).evaluate (coordinates asNumber)) twoVectors).run
        unrated).1.toBool = true ∧
      ((Search.evaluate ((threads 2 none).evaluate (coordinates asNumber)) twoVectors).run
        unrated).1 = .error (.fault .index) := by
  have described := describes_return asNumber 1
  have inChunks : (threads 2 none : Backend Unit).InChunks (coordinates asNumber) 2 none :=
    evaluateWith_inChunks (quiet_of_describes described)
  have each : ∀ x ∈ unrated.1.bounds.clipRows twoVectors, x.size = 1 :=
    (Rows.shaped_clipRows _ _).each
  have two : 1 < (unrated.1.bounds.clipRows twoVectors).size := by
    simp [twoVectors]
  obtain ⟨log, run⟩ := run_of_inChunks_number described each inChunks (by decide) two unrated.2
  constructor
  · decide +kernel
  · exact congrArg Prod.fst
      (Search.evaluate_rejects (by decide) (congrArg (·.1 >>= Search.blockRows 2) run))

end Backend

end BoxSearch
