import BoxSearch.Proofs.Kinship.Search
import BoxSearch.Proofs.Solver.Progress

/-!
Two ways to a first population.

A run may take over points whose fitness is known, or sample points and have them evaluated. What it
has afterwards is the same for the same points, except that the evaluations were paid for, and that
sampled points were moved into the box.
-/

namespace BoxSearch

open Search

variable {σ : Type} {J : σ → σ → Prop} {R S : Float → Float → Prop} {P : Type} {d w n : Nat}
  {box : Bounds Float}

/-- The evaluator computes one function of the point, without payloads: it answers every batch with
the function's vectors, all of one width, and leaves the user's state alone. -/
structure Evaluator.Computes (f : Row Float → Row Float) (d w : Nat) (e : Evaluator σ Float P) :
    Prop where
  width : ∀ x : Row Float, x.size = d → (f x).size = w
  answers : ∀ (X : Rows Float) session, 0 < X.size → (∀ x ∈ X, x.size = d) →
    ∃ block log, (e X).run session = (.ok block, { session with log }) ∧
      blockRows X.size block = .ok (w, X.map f) ∧ block.products = none

namespace Evaluator.Computes

variable {f : Row Float → Row Float} {e : Evaluator σ Float P}

theorem shaped (h : e.Computes f d w) {X : Rows Float} (shaped : X.Shaped n d) :
    Rows.Shaped n w (X.map f) := by
  rw [← shaped.size]
  exact Rows.shaped_map fun x hx => h.width x (shaped.each x hx)

theorem total (h : e.Computes f d w) : e.Total d w := by
  intro X session nonempty width
  obtain ⟨block, log, answered, rows, products⟩ := h.answers X session nonempty width
  refine ⟨block, _, _, answered, rows, h.shaped ⟨rfl, width⟩, ?_⟩
  rw [checkProducts, products]

/-- What is computed of kin points is kin if the function respects kinship. -/
theorem map_kin (respects : ∀ x x' : Row Float, x.size = d → Related R x x' →
    Related S (f x) (f x')) {X X' : Rows Float} (h : Rows.Kin R X X')
    (width : ∀ x ∈ X, x.size = d) : Rows.Kin S (X.map f) (X'.map f) := by
  apply Related.of_getElem (by simpa using h.size_eq)
  intro i hi hi'
  rw [Array.size_map] at hi hi'
  simp only [Array.getElem_map]
  exact respects _ _ (width _ (Array.getElem_mem hi)) (h.getElem i hi hi')

theorem kin (h : e.Computes f d w) (dim : box.dim = d)
    (respects : ∀ x x' : Row Float, x.size = d → Related R x x' → Related S (f x) (f x')) :
    Evaluator.Kin J R S box e e := by
  intro X X' kin nonempty width s s' users
  rw [dim] at width
  have size := kin.size_eq
  have width' : ∀ x ∈ X', x.size = d := by
    intro x hx
    obtain ⟨i, hi, rfl⟩ := Array.getElem_of_mem hx
    rw [← (kin.getElem i (by omega) hi).size_eq]
    exact width _ (Array.getElem_mem _)
  obtain ⟨block, log, answered, rows, products⟩ := h.answers X s nonempty width
  obtain ⟨block', log', answered', rows', products'⟩ := h.answers X' s' (by omega) width'
  rw [answered, answered']
  refine ⟨.ok ⟨?_, products.trans products'.symm⟩, users⟩
  rw [rows, size, rows']
  exact .ok ⟨rfl, map_kin respects kin width⟩

end Evaluator.Computes

/-- An objective without payloads that is a function of the point is computed by every backend. -/
theorem Backend.computes_of_inChunks {p : Problem σ} {g : Row Float → Except Raised Value}
    {backend : Backend σ} {workers : Nat} {chunk : Option Int} (answers : p.Answers g)
    (total : p.Total g d w) (plain : p.returnsProduct = false)
    (chunked : backend.InChunks (.problem p) workers chunk) :
    Evaluator.Computes (p.fitnessAt g) d w (backend.evaluate (.problem p)) where
  width x size := by
    obtain ⟨f, product, rated, width⟩ := total.rows x size
    simpa [Problem.fitnessAt, rated] using width
  answers X session nonempty width := by
    have even := Problem.even_fitnessAt (total.fits width)
    obtain ⟨log, run⟩ := answer_of_inChunks answers total chunked session nonempty width
    exact ⟨_, log, run, blockRows_ofRows Array.size_map even, by simp [plain]⟩

namespace Run

/-- The run with points that it has taken over, which wait for a tracker just made. -/
def seeded (run : Run Float P) (w : Nat) (t : Tracker Float P) (X F : Rows Float) : Run Float P :=
  { run with
    nObj := some (w : Int)
    tracker := some t
    nonFinite := run.nonFinite + Fitness.unrankedCount F
    X := X
    F := some (Fitness.rankedRows F)
    stale := Array.replicate run.popSize false
    pending := run.pending.push ⟨X, Fitness.rankedRows F, none⟩ }

theorem stalePlaces_seeded (run : Run Float P) (w : Nat) (t : Tracker Float P) (X F : Rows Float) :
    (run.seeded w t X F).stalePlaces = [] := by
  apply stalePlaces_eq_nil
  intro i below
  simp only [seeded] at below ⊢
  rw [Array.getElem?_replicate, if_pos below]

/-- The run has paid for `k` evaluations. -/
def paid (run : Run Float P) (k : Nat) : Run Float P :=
  { run with nEval := run.nEval + k }

/-- A run that has not begun. -/
structure Blank (n d : Nat) (run : Run Float P) : Prop where
  popSize : run.popSize = n
  dim : run.dim = d
  untracked : run.tracker = none
  idle : run.pending = #[]
  unknown : run.F = none
  positions : run.X.size = n
  stale : run.stale.size = n
  remarks : run.remarks = []
  swarm : run.swarm = .empty

/-- Runs that have taken over kin points are kin; the second one may have paid for them. -/
theorem Blank.seeded_kin [Kinship R] [Kinship S] {run : Run Float P} (h : run.Blank n d)
    {t : Tracker Float P} {X X' F F' : Rows Float} (bounds : run.bounds = box)
    (start : Tracker.start run.dim w run.frontLimit = .ok t) (points : Rows.Kin R X X')
    (fitness : Rows.Kin S F F') (k : Nat) :
    (run.seeded w t X F).Kin R S box k ((run.seeded w t X' F').paid k) := by
  have ranked := Fitness.rankedRows_kin fitness
  have tracker : Tracker.Kin R S t t := by
    have started := Tracker.Kin.refl_start (P := P) (R := R) (S := S) run.dim w run.frontLimit
    rw [start] at started
    cases started with
    | ok kin => exact kin
  exact {
    bounds := bounds
    bounds' := bounds
    popSize := rfl
    frontLimit := rfl
    streams := rfl
    generation := rfl
    nEval := rfl
    X := points
    F := .some ranked
    stale := rfl
    nObj := rfl
    tracker := .some tracker
    pending := by
      simp only [seeded, paid, h.idle]
      exact Related.push .nil ⟨points, ranked, rfl⟩
    nonFinite := congrArg (run.nonFinite + ·) (Fitness.unrankedCount_eq fitness)
    swarm := by
      simp only [seeded, paid, h.swarm]
      exact ⟨.none, .none, .none⟩
    remarks := rfl }

end Run

namespace Search

variable {s : Run Float P × Session σ} {X F : Rows Float}

theorem seed_ends (untracked : s.1.tracker = none)
    (declared : ∀ m, s.1.nObj = some m → m = (w : Int))
    (limit : w = 1 ∨ ∃ limit, Front.limitOf s.1.frontLimit = .ok limit) (X F : Rows Float) :
    Ends (seed X F w) s (fun _ => False) fun _ s' => s'.2.user = s.2.user ∧
      ∃ t, Tracker.start s.1.dim w s.1.frontLimit = .ok t ∧ s'.1 = s.1.seeded w t X F := by
  have succeeds : Ends (seed X F w) s (fun _ => False) fun _ _ => True := by
    simp only [seed, ends_bind, ends_current, ends_update, ends_log]
    apply (registerWidth_first untracked declared limit).imp
    intro _ s₁ _
    exact (ranked_ends F).imp fun _ _ _ => trivial
  apply (succeeds.and_ensures (seed_ensures X F w)).imp
  rintro _ s' ⟨-, run, registered, changed, user⟩
  cases registered with
  | known tracked =>
    rw [untracked] at tracked
    cases tracked
  | first t _ _ start => exact ⟨user, t, start, changed⟩

/-- Without stale rows there is nothing to evaluate. -/
theorem evaluateAll_rests {e : Evaluator σ Float P} (fresh : s.1.stalePlaces = []) :
    Ends (evaluateAll e) s (fun _ => False) fun _ s' => s' = s := by
  simp only [evaluateAll, ends_bind, ends_ite, ends_current, ends_pure, fresh, List.isEmpty_nil]
  exact ⟨fun _ => trivial, fun some => absurd trivial some⟩

end Search

namespace Run

theorem rows_range {X : Rows Float} (size : X.size = n) :
    ((List.range n).map X.row).toArray = X := by
  apply Array.ext (by simp [size])
  intro i hi hi'
  simp [Rows.row, hi']

variable {s : Run Float P × Session σ} {X : Rows Float}

theorem Blank.moveAll_X {run : Run Float P} (h : run.Blank n d) (shaped : X.Shaped n d) :
    (run.moveAll X).X = run.bounds.clipRows X := by
  refine writeAt_range (n := run.popSize) (h.positions.trans h.popSize.symm) ?_
  rw [Bounds.size_clipRows, shaped.size, h.popSize]

theorem Blank.sampled {run : Run Float P} (h : run.Blank n d) (shaped : X.Shaped n d) :
    (run.moveAll X).Sampled n d where
  popSize := h.popSize
  dim := h.dim
  untracked := h.untracked
  idle := h.idle
  unknown := h.unknown
  positions := by
    rw [h.moveAll_X shaped, ← shaped.size, ← h.dim]
    exact Rows.shaped_clipRows run.bounds X
  stale := by rw [stalePlaces_moveAll (h.stale.trans h.popSize.symm), h.popSize]
  remarks := h.remarks
  swarm := h.swarm

/-- To have all points evaluated, after they were moved, is to take over the moved points with their
fitness, and to pay for it. -/
theorem Blank.evaluateAll_ends {run : Run Float P} {session : Session σ}
    {f : Row Float → Row Float} {e : Evaluator σ Float P} (h : run.Blank n d)
    (computes : e.Computes f d w) (large : 0 < n) (shaped : X.Shaped n d)
    (declared : ∀ m, run.nObj = some m → m = (w : Int))
    (limit : w = 1 ∨ ∃ limit, Front.limitOf run.frontLimit = .ok limit) :
    Ends (evaluateAll e) (run.moveAll X, session) (fun _ => False) fun _ s' =>
      s'.2.user = session.user ∧ ∃ t, Tracker.start run.dim w run.frontLimit = .ok t ∧
        s'.1 = (run.seeded w t (run.bounds.clipRows X)
          ((run.bounds.clipRows X).map f)).paid n := by
  have sampled := h.sampled shaped
  have moved := h.moveAll_X shaped
  have clipped : (run.bounds.clipRows X).Shaped n d := by
    rw [← moved]
    exact sampled.positions
  have stale : run.bounds.clipRows (staleRows (run.moveAll X)) = run.bounds.clipRows X := by
    rw [staleRows, sampled.stale, moved, rows_range clipped.size, Bounds.clipRows_clipRows]
  apply ((evaluateAll_succeeds (s := (run.moveAll X, session)) computes.total large sampled declared
    limit).and_ensures (evaluateAll_ensures e)).imp
  rintro _ s₂ ⟨-, outcome⟩
  have some : ¬(run.moveAll X).stalePlaces.isEmpty = true := by
    rw [sampled.stale, List.isEmpty_iff, List.range_eq_nil]
    omega
  rw [if_neg some] at outcome
  obtain ⟨G, s₁, evaluated, rfl⟩ := outcome
  change Evaluated e (run.bounds.clipRows (staleRows (run.moveAll X))) G _ s₁ at evaluated
  rw [stale] at evaluated
  obtain ⟨block, width, raw, ses, run', answered, rows, -, registered, rated, changed, user⟩ :=
    evaluated
  obtain ⟨block', log, answered', rows', products⟩ :=
    computes.answers _ session (clipped.size ▸ large) clipped.each
  rw [answered'] at answered
  cases answered
  rw [rows'] at rows
  cases rows
  cases registered with
  | known tracked =>
    rw [sampled.untracked] at tracked
    cases tracked
  | first t untracked agrees start =>
    refine ⟨user, t, start, ?_⟩
    have written (known : Rows Float) (size : known.size = n) :
        writeAt known (List.range n) (Fitness.rankedRows ((run.bounds.clipRows X).map f)) =
          Fitness.rankedRows ((run.bounds.clipRows X).map f) :=
      writeAt_range size (computes.shaped clipped).rankedRows.size
    have fresh : writeAt (run.moveAll X).stale (List.range n) (Array.replicate n false) =
        Array.replicate n false :=
      writeAt_range ((size_writeAt _ _ _).trans h.stale) (by simp)
    simp only [settle, mark, changed, seeded, paid, Run.mk.injEq, sampled.stale, sampled.unknown,
      sampled.popSize, h.popSize, moved, clipped.size, products, rated, List.length_range,
      Option.getD_none, written _ Array.size_replicate, fresh]
    exact ⟨rfl, trivial, rfl, rfl, rfl, rfl, trivial, trivial, trivial, trivial, trivial, rfl, rfl,
      rfl, rfl⟩

end Run

end BoxSearch
