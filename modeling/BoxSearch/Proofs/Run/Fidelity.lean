import BoxSearch.Proofs.Archive.Held
import BoxSearch.Proofs.Run.Outcomes
import BoxSearch.Proofs.Run.Pairing
import BoxSearch.Proofs.Scalar.Binary
import BoxSearch.Proofs.Tensor
import BoxSearch.Run.Notes

/-!
A run that is faithful to what was evaluated.

Wherever a run keeps a point together with fitness, they go together: in the population, in the
batches that wait, in the tracker and in a swarm's memory. The steps that evaluate keep it so if
the evaluator answers every row with the fitness of that row.
-/

namespace BoxSearch

variable {σ α P : Type} [Scalar α] {R : Rating α P}

namespace Rating

/-- What the tracker holds, and what waits for it, goes together. All of it has the number of
objectives that the tracker was made for. -/
structure Backs (R : Rating α P) (nObj : Option Int) (tracker : Option (Tracker α P))
    (pending : Array (Batch α P)) : Prop where
  held : ∀ t, tracker = some t → ∀ m ∈ t.held, R m.x m.f m.product
  waiting : ∀ b ∈ pending, ∀ m ∈ b.members, R m.x m.f m.product
  size : ∀ b ∈ pending, b.F.size = b.X.size
  width : ∀ t, tracker = some t → ∃ width : Nat, nObj = some (width : Int) ∧
    (∀ m : Member α P, m.f.size = width → t.Suits m) ∧
      ∀ b ∈ pending, ∀ m ∈ b.members, m.f.size = width
  idle : tracker = none → pending = #[]

/-- The best places of a swarm have the fitness that goes with them. -/
def Recalls (R : Rating α P) (n : Nat) (memory : Swarm.Memory α) : Prop :=
  ∀ bestX bestF, memory.bestX = some bestX → memory.bestF = some bestF →
    bestX.size = n ∧ bestF.size = n ∧ ∀ i < n, R.Pairs (bestX.row i) (bestF.row i)

end Rating

/-- Tracker and waiting batches of a run hold points with what goes with them. -/
def Run.Backed (R : Rating α P) (run : Run α P) : Prop :=
  R.Backs run.nObj run.tracker run.pending

/-- Wherever the run keeps a point with fitness, they go together. -/
structure Run.Faithful (R : Rating α P) (run : Run α P) : Prop where
  paired : run.Paired R
  backed : run.Backed R
  recalls : R.Recalls run.popSize run.swarm

/-- The evaluator answers every row with the fitness and the payload of that row. -/
def Evaluator.Honest (R : Rating α P) (evaluator : Evaluator σ α P) : Prop :=
  ∀ (rows : Rows α) ses block ses' width raw, rows.isEmpty = false →
    (evaluator rows).run ses = (.ok block, ses') →
    Search.blockRows rows.size block = .ok (width, raw) → raw.size = rows.size ∧
    ∀ k < rows.size, (raw.row k).size = width ∧
      R (rows.row k) ((raw.row k).map Fitness.ranked)
        (Batch.product ⟨rows, Fitness.rankedRows raw, block.products⟩ k)

namespace Run

variable {run run' : Run α P} {width : Nat}

/-- Registering a number of objectives makes a tracker for it that holds nothing, or finds one. -/
theorem backed_registered (h : run.Backed R) (registered : run.Registered width run') :
    run'.Backed R ∧ run'.nObj = some (width : Int) ∧ run'.tracker.isSome = true := by
  cases registered with
  | known tracked agrees =>
    obtain ⟨t, ht⟩ := Option.isSome_iff_exists.mp tracked
    obtain ⟨w, objectives, _⟩ := h.width t ht
    refine ⟨h, ?_, tracked⟩
    rw [objectives, agrees w objectives]
  | first fresh untracked agrees start =>
    obtain ⟨nothing, suits⟩ := Tracker.held_start start
    have idle : run.pending = #[] := h.idle untracked
    refine ⟨⟨?_, h.waiting, h.size, ?_, ?_⟩, rfl, rfl⟩
    · intro t ht m hm
      cases ht
      rw [nothing] at hm
      cases hm
    · intro t ht
      cases ht
      refine ⟨width, rfl, suits, fun b hb => ?_⟩
      change b ∈ run.pending at hb
      rw [idle] at hb
      simp at hb
    · intro none
      cases none

omit [Scalar α] in
/-- A batch joins those that wait. -/
theorem backs_push {nObj : Option Int} {tracker : Option (Tracker α P)}
    {pending : Array (Batch α P)} {b : Batch α P} (h : R.Backs nObj tracker pending)
    (tracked : tracker.isSome = true) (objectives : nObj = some (width : Int))
    (size : b.F.size = b.X.size)
    (good : ∀ m ∈ b.members, m.f.size = width ∧ R m.x m.f m.product) :
    R.Backs nObj tracker (pending.push b) := by
  refine ⟨h.held, ?_, ?_, ?_, ?_⟩
  · intro c hc m hm
    rcases Array.mem_push.mp hc with before | rfl
    · exact h.waiting c before m hm
    · exact (good m hm).2
  · intro c hc
    rcases Array.mem_push.mp hc with before | rfl
    · exact h.size c before
    · exact size
  · intro t ht
    obtain ⟨w, hw, suits, widths⟩ := h.width t ht
    have same : w = width := by
      rw [hw] at objectives
      exact Int.ofNat.inj (Option.some.inj objectives)
    refine ⟨w, hw, suits, fun c hc m hm => ?_⟩
    rcases Array.mem_push.mp hc with before | rfl
    · exact widths c before m hm
    · rw [same]
      exact (good m hm).1
  · intro none
    rw [none] at tracked
    cases tracked

/-- What has been folded into the tracker goes together as it did before. -/
theorem backs_foldAll {nObj : Option Int} {tracker : Option (Tracker α P)}
    {pending : Array (Batch α P)} (h : R.Backs nObj tracker pending) :
    R.Backs nObj (tracker.map (·.foldAll pending)) #[] := by
  cases tracker with
  | none => exact ⟨by simp, by simp, by simp, by simp, by simp⟩
  | some t =>
    obtain ⟨w, objectives, suits, widths⟩ := h.width t rfl
    have offered : ∀ b ∈ pending, ∀ m ∈ b.members, t.Suits m :=
      fun b hb m hm => suits m (widths b hb m hm)
    refine ⟨?_, by simp, by simp, ?_, by simp⟩
    · intro t' ht' m hm
      cases ht'
      rcases Tracker.held_foldAll h.size offered hm with before | ⟨b, hb, new⟩
      · exact h.held t rfl m before
      · exact h.waiting b hb m new
    · intro t' ht'
      cases ht'
      exact ⟨w, objectives, fun m hm => Tracker.suits_foldAll.mpr (suits m hm), by simp⟩

theorem F_of_fitness {F : Rows α} (h : run.fitness = .ok F) : run.F = some F := by
  rw [fitness] at h
  cases stored : run.F with
  | none =>
    rw [stored] at h
    cases h
  | some F' =>
    rw [stored] at h
    cases h
    rfl

end Run

namespace Search

variable {s : Run α P × Session σ}

/-- The run is the same apart from its books and counters. -/
def Assesses (run run' : Run α P) : Prop :=
  ∃ nObj tracker pending nEval nonFinite,
    run' = { run with nObj, tracker, pending, nEval, nonFinite }

theorem Assesses.population {run run' : Run α P} (h : Assesses run run') :
    run'.bounds = run.bounds ∧ run'.popSize = run.popSize ∧ run'.F = run.F ∧
      run'.swarm = run.swarm := by
  obtain ⟨nObj, tracker, pending, nEval, nonFinite, rfl⟩ := h
  exact ⟨rfl, rfl, rfl, rfl⟩

theorem Assesses.stalePlaces {run run' : Run α P} (h : Assesses run run') :
    run'.stalePlaces = run.stalePlaces := by
  obtain ⟨nObj, tracker, pending, nEval, nonFinite, rfl⟩ := h
  rfl

theorem faithful_of_assesses {run run' : Run α P} (h : run.Faithful R) (same : Assesses run run')
    (backed : run'.Backed R) : run'.Faithful R := by
  obtain ⟨nObj, tracker, pending, nEval, nonFinite, rfl⟩ := same
  exact ⟨h.paired, backed, h.recalls⟩

theorem evaluated_faithful {evaluator : Evaluator σ α P} (honest : evaluator.Honest R)
    {X F : Rows α} {s' : Run α P × Session σ} (h : s.1.Faithful R)
    (nonempty : (s.1.bounds.clipRows X).isEmpty = false)
    (evaluated : Run.Evaluated evaluator (s.1.bounds.clipRows X) F s s') :
    R.Rates s.1.bounds X F ∧ s'.1.Faithful R ∧ Assesses s.1 s'.1 := by
  obtain ⟨block, width, raw, ses, run, answered, shaped, paired, registered, rated, changed, -⟩ :=
    evaluated
  obtain ⟨size, rows⟩ := honest _ _ _ _ _ _ nonempty answered shaped
  have sizeX : (s.1.bounds.clipRows X).size = X.size := Bounds.size_clipRows _ _
  have rowF : ∀ k < X.size, F.row k = (raw.row k).map Fitness.ranked := by
    intro k hk
    rw [rated]
    exact Fitness.row_rankedRows (by omega)
  have sizeF : F.size = X.size := by
    rw [rated, Fitness.size_rankedRows]
    omega
  have same : Assesses s.1 s'.1 := by
    rw [changed]
    cases registered <;> exact ⟨_, _, _, _, _, rfl⟩
  refine ⟨⟨sizeF, fun k hk => ?_⟩, faithful_of_assesses h same ?_, same⟩
  · obtain ⟨_, good⟩ := rows k (by omega)
    rw [Run.row_clipRows _ hk] at good
    rw [rowF k hk]
    exact ⟨_, good⟩
  · obtain ⟨backed, objectives, tracked⟩ := Run.backed_registered h.backed registered
    rw [changed]
    refine Run.backs_push backed tracked objectives (sizeF.trans sizeX.symm) fun m hm => ?_
    obtain ⟨k, hk, rfl⟩ := List.mem_map.mp hm
    have inside : k < (s.1.bounds.clipRows X).size := List.mem_range.mp hk
    obtain ⟨width, good⟩ := rows k inside
    change (F.row k).size = _ ∧ R _ (F.row k) _
    rw [rowF k (by omega), Array.size_map]
    rw [rated]
    exact ⟨width, good⟩

/-- Evaluating candidates gives each its fitness, and leaves the population alone. -/
theorem evaluate_faithful {evaluator : Evaluator σ α P} (honest : evaluator.Honest R)
    (h : s.1.Faithful R) (X : Rows α) :
    Ensures (evaluate evaluator X) s fun F s' =>
      R.Rates s.1.bounds X F ∧ s'.1.Faithful R ∧ Assesses s.1 s'.1 := by
  refine (evaluate_ensures evaluator X).mono fun F s' outcome => ?_
  by_cases empty : (s.1.bounds.clipRows X).isEmpty = true
  · rw [if_pos empty] at outcome
    obtain ⟨rfl, rfl⟩ := outcome
    have none : X.size = 0 := by
      have size := Bounds.size_clipRows s'.1.bounds X
      rw [Array.isEmpty_iff.mp empty] at size
      exact size.symm
    refine ⟨⟨none.symm, fun k hk => ?_⟩, h, _, _, _, _, _, rfl⟩
    omega
  · rw [if_neg empty] at outcome
    exact evaluated_faithful honest h (by simpa using empty) outcome

/-- After the stale rows have been evaluated no row is stale. -/
theorem evaluateAll_faithful {evaluator : Evaluator σ α P} (honest : evaluator.Honest R)
    (h : s.1.Faithful R) :
    Ensures (evaluateAll evaluator) s fun _ s' =>
      s'.1.Faithful R ∧ s'.1.stalePlaces = [] ∧ s'.1.swarm = s.1.swarm := by
  simp only [evaluateAll, ensures_bind, ensures_ite, ensures_current, ensures_update, ensures_pure]
  constructor
  · intro empty
    exact ⟨h, by simpa using empty, trivial⟩
  · intro nonempty
    refine (evaluate_faithful honest h _).mono fun F s₁ assessed => ?_
    obtain ⟨rates, faithful, nObj, tracker, pending, nEval, nonFinite, same⟩ := assessed
    have places : s₁.1.stalePlaces = s.1.stalePlaces :=
      Assesses.stalePlaces ⟨_, _, _, _, _, same⟩
    have rates' : R.Rates s₁.1.bounds (s₁.1.stalePlaces.map s₁.1.X.row).toArray F := by
      rw [same]
      exact rates
    obtain ⟨paired, fresh⟩ := Run.paired_settle faithful.paired rates'
    rw [places] at paired fresh
    have swarm : s₁.1.swarm = s.1.swarm := by
      rw [same]
    exact ⟨⟨paired, faithful.backed, faithful.recalls⟩, fresh, swarm⟩

theorem faithful_of_redrawn {run run' : Run α P} (h : run.Faithful R) (same : Redrawn run run') :
    run'.Faithful R := by
  obtain ⟨streams, rfl⟩ := same
  exact ⟨h.paired, h.backed, h.recalls⟩

/-- The population was written to in such a way that positions and fitness go together. -/
structure Rewrites (R : Rating α P) (run run' : Run α P) : Prop where
  same : Repositions run run'
  paired : run'.Paired R
  evaluated : run'.F.isSome = true

theorem Rewrites.refl {run : Run α P} (paired : run.Paired R) (evaluated : run.F.isSome = true) :
    Rewrites R run run :=
  ⟨⟨run.X, run.F, run.stale, rfl⟩, paired, evaluated⟩

theorem Rewrites.trans {run run' run'' : Run α P} (h : Rewrites R run run')
    (h' : Rewrites R run' run'') : Rewrites R run run'' := by
  obtain ⟨X, F, stale, rfl⟩ := h.same
  obtain ⟨X', F', stale', rfl⟩ := h'.same
  exact ⟨⟨X', F', stale', rfl⟩, h'.paired, h'.evaluated⟩

theorem Rewrites.bounds {run run' : Run α P} (h : Rewrites R run run') :
    run'.bounds = run.bounds := by
  obtain ⟨X, F, stale, rfl⟩ := h.same
  rfl

theorem Rewrites.faithful {run run' : Run α P} (h : Rewrites R run run')
    (faithful : run.Faithful R) :
    run'.Faithful R := by
  have paired := h.paired
  obtain ⟨X, F, stale, rfl⟩ := h.same
  exact ⟨paired, faithful.backed, faithful.recalls⟩

theorem rewrites_overwrite {run : Run α P} (h : Rewrites R run run) {places : List Nat}
    {X F : Rows α} (size : X.size = places.length) (rates : R.Rates run.bounds X F) :
    Rewrites R run (run.overwrite places X F) := by
  refine ⟨⟨_, _, _, rfl⟩, Run.paired_overwrite h.paired size rates h.evaluated, ?_⟩
  change (run.F.map _).isSome = true
  rw [Option.isSome_map]
  exact h.evaluated

/-- One candidate per member of the population is evaluated, and accepted where it is not worse. -/
theorem evaluateAccept_faithful {evaluator : Evaluator σ α P} (honest : evaluator.Honest R)
    (h : s.1.Faithful R) {X : Rows α} (size : X.size = s.1.popSize) :
    Ensures (evaluateAccept evaluator X) s fun _ s' => s'.1.Faithful R := by
  simp only [evaluateAccept, ensures_bind, ensures_current, ensures_ofExcept, ensures_update]
  refine (evaluate_faithful honest h X).mono fun F s₁ assessed stored hstored => ?_
  obtain ⟨rates, faithful, same⟩ := assessed
  obtain ⟨bounds, popSize, _⟩ := same.population
  have evaluated : s₁.1.F.isSome = true := by
    rw [Run.F_of_fitness hstored]
    rfl
  have count : X.size = (List.range s₁.1.popSize).length := by
    rw [List.length_range, popSize]
    exact size
  rw [← bounds] at rates
  have paired := Run.paired_accept (F := stored) faithful.paired count rates evaluated
  exact ⟨paired, faithful.backed, faithful.recalls⟩

/-- Folding what waits leaves the population alone. -/
theorem updateBest_faithful (h : s.1.Faithful R) :
    Ensures (updateBest : Search σ α P Unit) s fun _ s' =>
      s'.1.Faithful R ∧ Assesses s.1 s'.1 := by
  refine updateBest_ensures.mono fun _ s' folded => ?_
  have same : Assesses s.1 s'.1 := by
    rw [folded.1]
    exact ⟨_, _, _, _, _, rfl⟩
  refine ⟨faithful_of_assesses h same ?_, same⟩
  rw [folded.1]
  exact Run.backs_foldAll h.backed

/-- A population that is taken over stays as it is, provided that its fitness goes with it. -/
theorem seed_faithful {X F : Rows α} {width : Nat} (backed : s.1.Backed R)
    (recalls : R.Recalls s.1.popSize s.1.swarm) (sizeX : X.size = s.1.popSize)
    (sizeF : F.size = s.1.popSize)
    (good : ∀ i < s.1.popSize, (F.row i).size = width ∧
      R (X.row i) ((F.row i).map Fitness.ranked) none) :
    Ensures (seed X F width) s fun _ s' => s'.1.Faithful R := by
  refine (seed_ensures X F width).mono fun _ s' seeded => ?_
  obtain ⟨run, registered, changed, _⟩ := seeded
  have rows : ∀ i < s.1.popSize, (Fitness.rankedRows F).row i = (F.row i).map Fitness.ranked := by
    intro i hi
    exact Fitness.row_rankedRows (by omega)
  have sizeRanked : (Fitness.rankedRows F).size = s.1.popSize := by
    rw [Fitness.size_rankedRows, sizeF]
  obtain ⟨booked, objectives, tracked⟩ := Run.backed_registered backed registered
  have popSize : run.popSize = s.1.popSize := by
    cases registered <;> rfl
  have swarm : run.swarm = s.1.swarm := by
    cases registered <;> rfl
  rw [changed]
  refine ⟨⟨?_, ?_, ?_, ?_, ?_⟩, ?_, ?_⟩
  · exact sizeX.trans popSize.symm
  · exact Array.size_replicate
  · intro F' hF'
    cases hF'
    exact sizeRanked.trans popSize.symm
  · intro i hi _
    have below : i < s.1.popSize := by
      rw [← popSize]
      exact hi
    refine ⟨_, rfl, none, ?_⟩
    rw [rows i below]
    exact (good i below).2
  · intro i hi stale
    have fresh : (Array.replicate run.popSize false)[i]? = some true := stale
    have below : i < run.popSize := hi
    simp [below] at fresh
  · refine Run.backs_push booked tracked objectives (sizeRanked.trans sizeX.symm) fun m hm => ?_
    obtain ⟨i, hi, rfl⟩ := List.mem_map.mp hm
    have below : i < s.1.popSize := by
      rw [← sizeX]
      exact List.mem_range.mp hi
    change (Rows.row (Fitness.rankedRows F) i).size = _ ∧
      R _ (Rows.row (Fitness.rankedRows F) i) none
    rw [rows i below, Array.size_map]
    exact good i below
  · change R.Recalls run.popSize run.swarm
    rw [popSize, swarm]
    exact recalls

end Search

namespace Initial

open Search

variable {P : Type} {R : Rating Float P} {s : Run Float P × Session σ}

/-- A sampled population lies in the box, and all of it is stale. -/
theorem populate_faithful (initializer : Initializer σ) (sizeX : s.1.X.size = s.1.popSize)
    (sizeStale : s.1.stale.size = s.1.popSize)
    (sizeF : ∀ F, s.1.F = some F → F.size = s.1.popSize) (backed : s.1.Backed R)
    (recalls : R.Recalls s.1.popSize s.1.swarm) :
    Ensures (populate initializer) s fun _ s' => s'.1.Faithful R := by
  simp only [populate, ensures_bind, ensures_current, ensures_ite, ensures_throw]
  refine (sample_redrawn initializer).mono fun pool s₁ redrawn => ⟨fun _ => trivial, fun _ => ?_⟩
  obtain ⟨streams, same⟩ := redrawn
  simp only [setPositions, ensures_bind, ensures_current, ensures_ofExcept, ensures_update]
  intro rows cut
  have size : rows.size = s₁.1.popSize := Tensor.size_rowsExactly cut
  rw [same] at size ⊢
  exact ⟨Run.paired_moveAll size sizeX sizeStale sizeF, backed, recalls⟩

end Initial

end BoxSearch
