import BoxSearch.Proofs.Archive.Lasting
import BoxSearch.Proofs.Run.Boxed
import BoxSearch.Proofs.Draw

/-!
A run that is underway cannot fail on its own.

Once a population has been evaluated and folded into the tracker, a run has a shape: so many
individuals, so many dimensions, so many objectives, and all its arrays agree on them. Evaluations
of an objective of that width keep the shape and succeed, and so does everything that writes
candidates into the population.
-/

namespace BoxSearch

section Shape

variable {α : Type} {count width : Nat}

/-- A batch of so many vectors of one width. -/
structure Rows.Shaped (count width : Nat) (X : Rows α) : Prop where
  size : X.size = count
  each : ∀ x ∈ X, x.size = width

namespace Rows

theorem Shaped.row {X : Rows α} (h : X.Shaped count width) {i : Nat} (inside : i < count) :
    (X.row i).size = width := by
  have below : i < X.size := by rwa [h.size]
  have here : X.row i = X[i] := by simp [Rows.row, below]
  rw [here]
  exact h.each _ (Array.getElem_mem below)

theorem Shaped.writeAt {X values : Rows α} (h : X.Shaped count width) {places : List Nat}
    (each : ∀ x ∈ values, x.size = width) : Shaped count width (writeAt X places values) := by
  refine ⟨(size_writeAt _ _ _).trans h.size, fun x hx => ?_⟩
  rcases mem_writeAt hx with old | new
  · exact h.each x old
  · exact each x new

theorem shaped_map {ι : Type} {xs : Array ι} {f : ι → Row α} (each : ∀ x ∈ xs, (f x).size = width) :
    Shaped xs.size width (xs.map f) := by
  refine ⟨Array.size_map, fun y hy => ?_⟩
  obtain ⟨x, hx, rfl⟩ := Array.mem_map.mp hy
  exact each x hx

variable [Scalar α]

theorem shaped_clipRows (box : Bounds α) (X : Rows α) : (box.clipRows X).Shaped X.size box.dim :=
  shaped_map fun x _ => box.size_clip x

theorem Shaped.rankedRows {F : Rows α} (h : F.Shaped count width) :
    (Fitness.rankedRows F).Shaped count width := by
  have ranked : (Fitness.rankedRows F).Shaped F.size width :=
    shaped_map fun f hf => Array.size_map.trans (h.each f hf)
  rwa [h.size] at ranked

end Rows

end Shape

variable {σ α P : Type} [Scalar α] {n d w : Nat}

/-- Every batch of vectors with `d` entries is answered, with `w` numbers for each. -/
def Evaluator.Total (d w : Nat) (evaluator : Evaluator σ α P) : Prop :=
  ∀ (rows : Rows α) session, 0 < rows.size → (∀ x ∈ rows, x.size = d) →
    ∃ block raw session', (evaluator rows).run session = (.ok block, session') ∧
      Search.blockRows rows.size block = .ok (w, raw) ∧ raw.Shaped rows.size w ∧
      Search.checkProducts rows.size block = .ok ()

/-- A batch of vectors with `d` entries that is answered is answered with `w` numbers for each. -/
def Evaluator.Wide (d w : Nat) (evaluator : Evaluator σ α P) : Prop :=
  ∀ (rows : Rows α) session block session' width raw, 0 < rows.size → (∀ x ∈ rows, x.size = d) →
    (evaluator rows).run session = (.ok block, session') →
    Search.blockRows rows.size block = .ok (width, raw) → width = w ∧ raw.Shaped rows.size w

omit [Scalar α] in
theorem Evaluator.Total.wide {evaluator : Evaluator σ α P} (total : evaluator.Total d w) :
    evaluator.Wide d w := by
  intro rows session block session' width raw nonempty each answered shaped
  obtain ⟨block', raw', session'', answered', shaped', rows', -⟩ := total rows session nonempty each
  rw [answered] at answered'
  cases answered'
  rw [shaped] at shaped'
  cases shaped'
  exact ⟨rfl, rows'⟩

omit [Scalar α] in
/-- The rows of a block of equally wide fitness vectors. -/
theorem Search.blockRows_ofRows {F : Rows α} {products : Option (Array (Option P))}
    (size : F.size = n) (even : ∀ f ∈ F.toList, f.size = w) :
    Search.blockRows n ⟨.ofRows w F, products⟩ = .ok (w, F) := by
  simp only [blockRows, Tensor.rows?_ofRows even]
  simp [Tensor.ofRows, size]

/-- A swarm remembers a velocity and a best place for every particle. -/
def Swarm.Memory.Complete (n d w : Nat) (memory : Memory α) : Prop :=
  ∃ velocity bestX bestF : Rows α, memory = ⟨some velocity, some bestX, some bestF⟩ ∧
    velocity.Shaped n d ∧ bestX.Shaped n d ∧ bestF.Shaped n w

namespace Run

/-- No other note stands where a swarm keeps its memory, which is complete or not there yet. -/
def Recollects (n d w : Nat) (run : Run α P) : Prop :=
  run.remarks = [] ∧ (run.swarm.velocity = none ∨ run.swarm.Complete n d w)

/-- The run has `n` individuals in `d` dimensions with `w` objectives, and all its arrays agree on
that. The population has been evaluated, and the tracker holds a point. -/
structure Underway (n d w : Nat) (run : Run α P) : Prop where
  popSize : run.popSize = n
  dim : run.dim = d
  objectives : run.nObj = some (w : Int)
  lasting : ∃ t, run.tracker = some t ∧ t.Lasting w
  positions : run.X.Shaped n d
  fitness : ∃ F, run.F = some F ∧ F.Shaped n w
  recollects : run.Recollects n d w

variable {run run' : Run α P}

theorem Underway.fitness_eq (h : run.Underway n d w) : ∃ F, run.fitness = .ok F ∧ F.Shaped n w := by
  obtain ⟨F, known, shaped⟩ := h.fitness
  exact ⟨F, by rw [Run.fitness, known], shaped⟩

theorem Underway.hasBest (h : run.Underway n d w) : run.hasBest = true := by
  obtain ⟨t, tracked, lasting⟩ := h.lasting
  simp [Run.hasBest, tracked, lasting.hasBest]

/-- A single objective has no front. -/
theorem Underway.front?_eq_none (h : run.Underway n d 1) : run.front? = none := by
  obtain ⟨t, tracked, lasting⟩ := h.lasting
  cases t with
  | single s => simp [Run.front?, tracked, Tracker.front?]
  | several front => exact absurd rfl (lasting.roomy front rfl).1

theorem Underway.redrawn (h : run.Underway n d w) (drawn : Search.Redrawn run run') :
    run'.Underway n d w := by
  obtain ⟨streams, rfl⟩ := drawn
  exact ⟨h.popSize, h.dim, h.objectives, h.lasting, h.positions, h.fitness, h.recollects⟩

/-- Positions may change as long as they are moved into the box. -/
theorem Underway.put (h : run.Underway n d w) (places : List Nat) (X : Rows α) :
    (run.put places X).Underway n d w := by
  refine ⟨h.popSize, h.dim, h.objectives, h.lasting, ?_, h.fitness, h.recollects⟩
  apply h.positions.writeAt
  rw [← h.dim]
  exact (Rows.shaped_clipRows _ X).each

theorem Underway.mark (h : run.Underway n d w) (places : List Nat) (stale : Bool) :
    (run.mark places stale).Underway n d w :=
  ⟨h.popSize, h.dim, h.objectives, h.lasting, h.positions, h.fitness, h.recollects⟩

theorem Underway.move (h : run.Underway n d w) (places : List Nat) (X : Rows α) :
    (run.move places X).Underway n d w :=
  (h.put places X).mark places true

theorem Underway.rate (h : run.Underway n d w) {places : List Nat} {F : Rows α}
    (width : ∀ f ∈ F, f.size = w) : (run.rate places F).Underway n d w := by
  obtain ⟨stored, known, shaped⟩ := h.fitness
  have written : (run.rate places F).F = some (writeAt stored places F) := by
    change run.F.map _ = _
    rw [known]
    rfl
  exact ⟨h.popSize, h.dim, h.objectives, h.lasting, h.positions,
    ⟨_, written, shaped.writeAt width⟩, h.recollects⟩

theorem Underway.overwrite (h : run.Underway n d w) {places : List Nat} {X F : Rows α}
    (width : ∀ f ∈ F, f.size = w) : (run.overwrite places X F).Underway n d w :=
  (h.put places X).rate width

/-- One row is overwritten by a candidate with fitness. -/
theorem Underway.overwrite_one (h : run.Underway n d w) {i : Nat} {x f : Row α}
    (width : f.size = w) : (run.overwrite [i] #[x] #[f]).Underway n d w := by
  apply h.overwrite
  intro g hg
  obtain rfl := Array.mem_singleton.mp hg
  exact width

theorem Underway.settle (h : run.Underway n d w) {places : List Nat} {F : Rows α}
    (width : ∀ f ∈ F, f.size = w) : (run.settle places F).Underway n d w := by
  obtain ⟨stored, known, shaped⟩ := h.fitness
  have written : (run.settle places F).F = some (writeAt stored places F) := by
    change some (writeAt (run.F.getD _) places F) = _
    rw [known]
    rfl
  exact ⟨h.popSize, h.dim, h.objectives, h.lasting, h.positions,
    ⟨_, written, shaped.writeAt width⟩, h.recollects⟩

theorem Underway.accept (h : run.Underway n d w) (stored : Rows α) (places : List Nat)
    (X : Rows α) {F : Rows α} (width : ∀ f ∈ F, f.size = w) :
    (run.accept stored places X F).2.Underway n d w := by
  refine h.overwrite fun f hf => width f ?_
  simp only [selected, List.mem_toArray, List.mem_map, List.mem_filter] at hf
  obtain ⟨⟨_, g⟩, ⟨mem, _⟩, rfl⟩ := hf
  exact Array.mem_toList_iff.mp (List.of_mem_zip mem).2

theorem Underway.completeGeneration (h : run.Underway n d w) :
    run.completeGeneration.Underway n d w :=
  ⟨h.popSize, h.dim, h.objectives, h.lasting, h.positions, h.fitness, h.recollects⟩

theorem Underway.folded (h : run.Underway n d w) (pending : Array (Batch α P)) :
    Underway n d w { run with
      tracker := run.tracker.map (·.foldAll pending), pending := #[] } := by
  obtain ⟨t, tracked, lasting⟩ := h.lasting
  refine ⟨h.popSize, h.dim, h.objectives, ⟨t.foldAll pending, ?_, ?_⟩, h.positions, h.fitness,
    h.recollects⟩
  · simp [tracked]
  · exact Tracker.lasting_foldAll lasting.roomy (.inl lasting.hasBest)

/-- Having the crowding distances of the front at hand is no change of shape. -/
theorem Underway.measureFront (h : run.Underway n d w) : run.measureFront.Underway n d w := by
  obtain ⟨t, tracked, lasting⟩ := h.lasting
  rw [Run.measureFront, tracked]
  cases t with
  | single s =>
    exact ⟨h.popSize, h.dim, h.objectives, ⟨_, tracked, lasting⟩, h.positions, h.fitness,
      h.recollects⟩
  | several front =>
    refine ⟨h.popSize, h.dim, h.objectives, ⟨_, rfl, lasting.hasBest, ?_⟩, h.positions, h.fitness,
      h.recollects⟩
    intro measured same
    cases same
    exact lasting.roomy front rfl

end Run

namespace Search

variable {evaluator : Evaluator σ α P} {s : Run α P × Session σ} {β : Type}
  {failed : Run α P × Session σ → Prop}

/-- The computation succeeds and keeps the run underway. -/
abbrev Proceeds (n d w : Nat) (m : Search σ α P β) (s : Run α P × Session σ) : Prop :=
  Ends m s (fun _ => False) fun _ s' => s'.1.Underway n d w

/-- The number of objectives is known and agrees. -/
theorem registerWidth_known (tracked : s.1.tracker.isSome = true)
    (objectives : s.1.nObj = some (w : Int)) :
    Ends (registerWidth w) s failed fun _ s' => s' = s := by
  simp only [registerWidth, ends_bind, ends_current, ends_ite, tracked, objectives]
  exact ⟨fun _ => ⟨by simp, fun _ => rfl⟩, fun untracked => absurd trivial untracked⟩

/-- The first number of objectives is taken note of. -/
theorem registerWidth_first (untracked : s.1.tracker = none)
    (declared : ∀ m, s.1.nObj = some m → m = (w : Int))
    (limit : w = 1 ∨ ∃ limit, Front.limitOf s.1.frontLimit = .ok limit) :
    Ends (registerWidth w) s failed fun _ _ => True := by
  have starts : ∃ t : Tracker α P, Tracker.start s.1.dim w s.1.frontLimit = .ok t := by
    rw [Tracker.start]
    split
    case isTrue => exact ⟨_, rfl⟩
    case isFalse several =>
      obtain ⟨l, read⟩ := limit.resolve_left (by simpa using several)
      rw [read]
      exact ⟨_, rfl⟩
  obtain ⟨t, start⟩ := starts
  rw [registerWidth]
  cases known : s.1.nObj with
  | none => simp [untracked, known, start]
  | some m =>
    obtain rfl := declared m known
    simp [untracked, known, start]
theorem ranked_ends (F : Rows α) :
    Ends (ranked F) s failed fun F' s' => F' = Fitness.rankedRows F ∧
      s'.1 = { s.1 with nonFinite := s.1.nonFinite + Fitness.unrankedCount F } := by
  simp only [ranked, ends_bind, ends_ite, ends_current, ends_log, ends_update, ends_pure, true_and,
    implies_true]
  intro zero
  have none : Fitness.unrankedCount F = 0 := by simpa using zero
  rw [none]
  rfl

/-- Evaluating candidates succeeds, with a fitness row of the right width for each. -/
theorem evaluate_proceeds (total : evaluator.Total d w) (h : s.1.Underway n d w) (X : Rows α) :
    Ends (evaluate evaluator X) s (fun _ => False) fun F s' =>
      F.Shaped X.size w ∧ s'.1.Underway n d w := by
  have clipped := Rows.shaped_clipRows s.1.bounds X
  simp only [evaluate, ends_bind, ends_ite, ends_current, ends_pure, ends_ofExcept, ends_update]
  constructor
  · intro empty
    have none : X.size = 0 := by simpa [Bounds.clipRows] using empty
    exact ⟨⟨by simp [none], by simp⟩, h⟩
  · intro filled
    have some : 0 < (s.1.bounds.clipRows X).size := by
      simpa [Bounds.clipRows, Array.size_pos_iff] using filled
    have width : ∀ x ∈ s.1.bounds.clipRows X, x.size = d := by
      rw [← h.dim]
      exact clipped.each
    obtain ⟨block, raw, session, answered, shaped, rows, paired⟩ := total _ s.2 some width
    obtain ⟨t, tracked, _⟩ := h.lasting
    rw [ends_act, answered]
    dsimp only
    rw [shaped, paired]
    refine forall_of_ok (forall_of_ok ?_)
    have known : Ends (registerWidth w) (s.1, session) (fun _ => False) fun _ s' =>
        s' = (s.1, session) :=
      registerWidth_known (by simp [tracked]) h.objectives
    apply known.imp
    rintro _ s₁ rfl
    apply (ranked_ends raw).imp
    rintro F s₂ ⟨rfl, changed⟩
    rw [clipped.size] at rows
    refine ⟨rows.rankedRows, ?_⟩
    rw [changed]
    exact ⟨h.popSize, h.dim, h.objectives, h.lasting, h.positions, h.fitness, h.recollects⟩

theorem evaluateAll_proceeds (total : evaluator.Total d w) (h : s.1.Underway n d w) :
    Proceeds n d w (evaluateAll evaluator) s := by
  simp only [evaluateAll, Proceeds, ends_bind, ends_ite, ends_current, ends_pure, ends_update]
  refine ⟨fun _ => h, fun _ => ?_⟩
  apply (evaluate_proceeds total h _).imp
  rintro F s₁ ⟨shaped, underway⟩
  exact underway.settle shaped.each

theorem evaluateAccept_proceeds (total : evaluator.Total d w) (h : s.1.Underway n d w)
    (X : Rows α) : Proceeds n d w (evaluateAccept evaluator X) s := by
  simp only [evaluateAccept, Proceeds, ends_bind, ends_current, ends_ofExcept, ends_update]
  apply (evaluate_proceeds total h X).imp
  rintro F s₁ ⟨shaped, underway⟩
  obtain ⟨stored, known, _⟩ := underway.fitness_eq
  rw [known]
  exact forall_of_ok (underway.accept stored _ X shaped.each)

/-- There is an objective, so whatever waits can be folded. -/
theorem updateBest_proceeds (width : 1 ≤ w) (h : s.1.Underway n d w) :
    Proceeds n d w (updateBest : Search σ α P Unit) s := by
  have objective : s.1.nObj ≠ some 0 := by
    rw [h.objectives]
    intro none
    have zero : (w : Int) = 0 := Option.some.inj none
    omega
  obtain ⟨s', folded⟩ := updateBest_succeeds (σ := σ) (s := s) objective
  rw [Proceeds, Ends, folded]
  dsimp only
  rw [(updateBest_ensures _ _ folded).1]
  exact h.folded s.1.pending

end Search

end BoxSearch
