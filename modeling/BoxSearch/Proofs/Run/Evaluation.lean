import BoxSearch.Proofs.Archive.Tracker
import BoxSearch.Proofs.Run.Effects
import BoxSearch.Run.Initial

/-!
What the steps of a run that evaluate do to it when they succeed.

An evaluation is one change of the run: the number of objectives is registered, fitness that cannot
be ranked is counted, and the rows join those that wait for the tracker. Nothing else moves, and the
only effect outside the run, apart from log entries, is that of the evaluator.
-/

namespace BoxSearch

/-- What registering a number of objectives does to a run: nothing if a tracker exists, which must
have been made for that number. Otherwise a tracker is made. -/
inductive Run.Registered {α P : Type} [Scalar α] (width : Nat) (run : Run α P) : Run α P → Prop
  | known (tracked : run.tracker.isSome = true)
      (agrees : ∀ n, run.nObj = some n → n = (width : Int)) : Registered width run run
  | first (fresh : Tracker α P) (untracked : run.tracker = none)
      (agrees : ∀ n, run.nObj = some n → n = (width : Int))
      (start : Tracker.start run.dim width run.frontLimit = .ok fresh) :
      Registered width run { run with nObj := some width, tracker := some fresh }

namespace Search

variable {σ α P : Type} [Scalar α] {β : Type} {s : Run α P × Session σ}

theorem log_ensures (event : Log.Event) :
    Ensures (log event) s fun _ s' => s'.1 = s.1 ∧ s'.2.user = s.2.user := by
  rw [log, ensures_act]
  intro b ses hrun
  cases hrun
  exact ⟨rfl, rfl⟩

theorem registerWidth_ensures (width : Nat) :
    Ensures (registerWidth width) s fun _ s' =>
      s.1.Registered width s'.1 ∧ s'.2.user = s.2.user := by
  simp only [registerWidth, ensures_bind, ensures_current, ensures_ite]
  constructor
  · intro tracked
    cases hn : s.1.nObj with
    | none => exact (ensures_pure _).mpr ⟨.known tracked (by simp [hn]), rfl⟩
    | some earlier =>
      simp only [ensures_ite, ensures_throw, ensures_pure, implies_true, true_and, and_true]
      intro hwidth
      refine .known tracked fun n h => ?_
      rw [hn] at h
      simpa [← Option.some.inj h] using hwidth
  · intro untracked
    have none : s.1.tracker = none := by simpa using untracked
    -- the rest of the step is the same with and without a declared number
    have rest (agrees : ∀ n, s.1.nObj = some n → n = (width : Int)) :
        Ensures (do
          update fun run => { run with nObj := some (width : Int) }
          let tracker ← ofExcept (Tracker.start s.1.dim width s.1.frontLimit)
          update fun run => { run with tracker := some tracker }
          log (.objectivesDetected width)) s fun _ s' =>
            s.1.Registered width s'.1 ∧ s'.2.user = s.2.user := by
      simp only [ensures_bind, ensures_update, ensures_ofExcept]
      intro fresh start
      refine (log_ensures _).mono fun _ s' h => ⟨?_, h.2⟩
      rw [h.1]
      exact .first fresh none agrees start
    cases hn : s.1.nObj with
    | none => exact rest (by simp [hn])
    | some declared =>
      simp only [ensures_ite]
      refine ⟨fun _ => by simp, fun hwidth => rest fun n h => ?_⟩
      rw [hn] at h
      simpa [← Option.some.inj h] using hwidth

theorem ranked_ensures (F : Rows α) :
    Ensures (ranked F) s fun F' s' =>
      F' = Fitness.rankedRows F ∧
        s'.1 = { s.1 with nonFinite := s.1.nonFinite + Fitness.unrankedCount F } ∧
        s'.2.user = s.2.user := by
  simp only [ranked, ensures_bind, ensures_ite, ensures_current, ensures_update, ensures_pure,
    true_and]
  constructor
  · intro _
    constructor
    · intro _
      refine (log_ensures _).mono fun _ s' h => ⟨?_, h.2⟩
      rw [h.1]
    · intro _
      trivial
  · intro hzero
    have none : Fitness.unrankedCount F = 0 := by simpa using hzero
    rw [none]
    trivial

end Search

/-- What the evaluation of rows that lie in the box does to a run when it succeeds. -/
inductive Run.Evaluated {σ α P : Type} [Scalar α] (evaluator : Evaluator σ α P) (rows F : Rows α)
    (s s' : Run α P × Session σ) : Prop
  | intro (block : Block α P) (width : Nat) (raw : Rows α) (ses : Session σ) (run : Run α P)
      (answered : (evaluator rows).run s.2 = (.ok block, ses))
      (shaped : Search.blockRows rows.size block = .ok (width, raw))
      (paired : Search.checkProducts rows.size block = .ok ())
      (registered : s.1.Registered width run)
      (rated : F = Fitness.rankedRows raw)
      (changed : s'.1 = { run with
        nonFinite := run.nonFinite + Fitness.unrankedCount raw
        nEval := run.nEval + rows.size
        pending := run.pending.push ⟨rows, F, block.products⟩ })
      (user : s'.2.user = ses.user)

namespace Search

variable {σ α P : Type} [Scalar α] {β : Type} {s : Run α P × Session σ}

/-- Without rows an evaluation does nothing, not even ask the evaluator. -/
theorem evaluate_ensures (evaluator : Evaluator σ α P) (X : Rows α) :
    Ensures (evaluate evaluator X) s fun F s' =>
      if (s.1.bounds.clipRows X).isEmpty then F = #[] ∧ s' = s
      else Run.Evaluated evaluator (s.1.bounds.clipRows X) F s s' := by
  simp only [evaluate, ensures_bind, ensures_ite, ensures_current, ensures_update, ensures_pure,
    ensures_act, ensures_ofExcept]
  constructor
  · intro empty
    simp [empty]
  · intro nonempty block ses answered shape shaped paired hpaired
    refine (registerWidth_ensures _).mono fun _ s₁ h₁ => ?_
    refine (ranked_ensures _).mono fun F s₂ h₂ => ?_
    rw [if_neg nonempty]
    obtain ⟨registered, user₁⟩ := h₁
    obtain ⟨rated, changed, user₂⟩ := h₂
    refine .intro block shape.1 shape.2 ses s₁.1 answered shaped hpaired registered rated ?_
      (user₂.trans user₁)
    rw [changed]

/-- An evaluation fails as the evaluator did, or as its block is turned away, and then nothing has
happened to the run. -/
theorem evaluate_rejects {evaluator : Evaluator σ α P} {X : Rows α} {e : Error} (filled : 0 < X.size)
    (h : (((evaluator (s.1.bounds.clipRows X)).run s.2).1 >>= blockRows X.size) = .error e) :
    (evaluate evaluator X).run s =
      (.error e, (s.1, ((evaluator (s.1.bounds.clipRows X)).run s.2).2)) := by
  have nonempty : ¬(s.1.bounds.clipRows X).isEmpty = true := by
    rw [Array.isEmpty_iff_size_eq_zero, Bounds.size_clipRows]
    omega
  rw [evaluate, run_bind, run_current]
  dsimp only
  rw [if_neg nonempty, run_bind, run_act, Bounds.size_clipRows]
  cases answered : (evaluator (s.1.bounds.clipRows X)).run s.2 with
  | mk r ses =>
    rw [answered] at h
    cases r with
    | error e' =>
      cases h
      rfl
    | ok block =>
      have rejected : blockRows X.size block = .error e := h
      dsimp only
      rw [run_bind, run_ofExcept, rejected]

/-- The stale rows of a run. -/
def staleRows (run : Run α P) : Rows α :=
  (run.stalePlaces.map run.X.row).toArray

theorem evaluateAll_ensures (evaluator : Evaluator σ α P) :
    Ensures (evaluateAll evaluator) s fun _ s' =>
      if s.1.stalePlaces.isEmpty then s' = s
      else ∃ F s₁, Run.Evaluated evaluator (s.1.bounds.clipRows (staleRows s.1)) F s s₁ ∧
        s' = (s₁.1.settle s.1.stalePlaces F, s₁.2) := by
  simp only [evaluateAll, ensures_bind, ensures_ite, ensures_current, ensures_update, ensures_pure]
  constructor
  · intro empty
    simp [empty]
  · intro nonempty
    refine (evaluate_ensures evaluator _).mono fun F s₁ h => ?_
    have rows : ¬(s.1.bounds.clipRows (staleRows s.1)).isEmpty = true := by
      simpa [Bounds.clipRows, staleRows] using nonempty
    rw [if_neg nonempty]
    exact ⟨F, s₁, (if_neg rows).mp h, rfl⟩

/-- Without stale rows there is nothing to evaluate. -/
theorem evaluateAll_idle {evaluator : Evaluator σ α P} (fresh : s.1.stalePlaces = []) :
    Ensures (evaluateAll evaluator) s fun _ s' => s' = s := by
  refine (evaluateAll_ensures evaluator).mono fun _ s' outcome => ?_
  rwa [fresh] at outcome

theorem foldl_foldBatch_fst (batches : List (Batch α P)) (acc : Tracker α P × List (Nat × Nat)) :
    (batches.foldl foldBatch acc).1 = batches.foldl (fun t b => (t.fold b).1) acc.1 := by
  induction batches generalizing acc with
  | nil => rfl
  | cons b batches ih => exact ih (foldBatch acc b)

theorem forM_log_ensures {ι : Type} (entry : ι → Log.Event) (xs : List ι) :
    Ensures (xs.forM fun x => log (entry x)) s fun _ s' =>
      s'.1 = s.1 ∧ s'.2.user = s.2.user := by
  induction xs generalizing s with
  | nil => exact (ensures_pure _).mpr ⟨rfl, rfl⟩
  | cons x xs ih =>
    change Ensures (log (entry x) >>= fun _ => xs.forM fun x => log (entry x)) s _
    rw [ensures_bind]
    refine (log_ensures _).mono fun _ s₁ h₁ => ih.mono fun _ s₂ h₂ => ?_
    exact ⟨h₂.1.trans h₁.1, h₂.2.trans h₁.2⟩

theorem updateBest_ensures :
    Ensures (updateBest : Search σ α P Unit) s fun _ s' =>
      s'.1 = { s.1 with tracker := s.1.tracker.map (·.foldAll s.1.pending), pending := #[] } ∧
        s'.2.user = s.2.user := by
  simp only [updateBest, ensures_bind, ensures_current]
  cases ht : s.1.tracker with
  | none =>
    simp only [ensures_update, Option.map_none]
    exact ⟨by rw [← ht], trivial⟩
  | some t =>
    simp only [ensures_bind, ensures_ite, ensures_throw, ensures_update]
    refine ⟨fun _ => trivial, fun _ => ?_⟩
    refine (forM_log_ensures _ _).mono fun _ s' h => ⟨?_, h.2⟩
    rw [h.1, ← Array.foldl_toList, foldl_foldBatch_fst, Array.foldl_toList]
    rfl

theorem forM_log_succeeds {ι : Type} (entry : ι → Log.Event) (xs : List ι)
    (s : Run α P × Session σ) : ∃ s', (xs.forM fun x => log (entry x)).run s = (.ok (), s') := by
  induction xs generalizing s with
  | nil => exact ⟨s, rfl⟩
  | cons x xs ih => exact ih (s.1, { s.2 with log := s.2.log.push (entry x) })

/-- Folding what waits cannot fail as long as there is an objective. -/
theorem updateBest_succeeds (h : s.1.nObj ≠ some 0) :
    ∃ s', (updateBest : Search σ α P Unit).run s = (.ok (), s') := by
  rw [updateBest, run_bind, run_current]
  dsimp only
  cases s.1.tracker with
  | none => exact ⟨_, rfl⟩
  | some t =>
    have objective : ¬(s.1.nObj == some 0 && !s.1.pending.isEmpty) = true := by simp [h]
    simp only [if_neg objective]
    obtain ⟨s₁, logged⟩ := forM_log_succeeds (fun d : Nat × Nat => Log.Event.dropped d.1 d.2)
      (s.1.pending.foldl foldBatch (t, [])).2 s
    refine ⟨({ s₁.1 with
      tracker := some (s.1.pending.foldl foldBatch (t, [])).1, pending := #[] }, s₁.2), ?_⟩
    rw [run_bind, logged]
    rfl

theorem seed_ensures (X F : Rows α) (width : Nat) :
    Ensures (seed X F width) s fun _ s' =>
      ∃ run, s.1.Registered width run ∧
        s'.1 = { run with
          nonFinite := run.nonFinite + Fitness.unrankedCount F
          X := X
          F := some (Fitness.rankedRows F)
          stale := Array.replicate run.popSize false
          pending := run.pending.push ⟨X, Fitness.rankedRows F, none⟩ } ∧
        s'.2.user = s.2.user := by
  simp only [seed, ensures_bind, ensures_current, ensures_update]
  refine (registerWidth_ensures _).mono fun _ s₁ h₁ => ?_
  refine (ranked_ensures _).mono fun F' s₂ h₂ => ?_
  refine (log_ensures _).mono fun _ s₃ h₃ => ?_
  obtain ⟨rfl, changed, user₂⟩ := h₂
  refine ⟨s₁.1, h₁.1, ?_, h₃.2.trans (user₂.trans h₁.2)⟩
  rw [h₃.1, changed]

/-- Random numbers were drawn, and the run is the same apart from that. -/
def Redrawn (run run' : Run α P) : Prop :=
  ∃ streams, run' = { run with streams }

theorem Redrawn.refl (run : Run α P) : Redrawn run run :=
  ⟨run.streams, rfl⟩

theorem Redrawn.trans {run run' run'' : Run α P} (h : Redrawn run run') (h' : Redrawn run' run'') :
    Redrawn run run'' := by
  obtain ⟨_, rfl⟩ := h
  obtain ⟨streams, rfl⟩ := h'
  exact ⟨streams, rfl⟩

theorem draw_redrawn (id : StreamId) (d : Draw β) :
    Ensures (draw id d) s fun _ s' => Redrawn s.1 s'.1 := by
  rw [ensures_draw]
  intro b streams _
  exact ⟨streams, rfl⟩

/-- One draw for each individual of a list leaves one result for each. -/
theorem drawEach_ensures (order : List Nat) (each : Nat → Draw β) :
    Ensures (drawEach order each) s fun drawn s' =>
      drawn.size = order.length ∧ Redrawn s.1 s'.1 := by
  refine ensures_foldlM (c := #[])
    (fun done (drawn : Array β) s' => drawn.size = done.length ∧ Redrawn s.1 s'.1)
    ⟨rfl, .refl _⟩ fun done i rest drawn s₁ _ h => ?_
  rw [ensures_bind]
  refine (draw_redrawn _ _).mono fun b s₂ h₂ => ?_
  rw [ensures_pure]
  exact ⟨by simp [h.1], h.2.trans h₂⟩

theorem perIndividual_ensures (each : Nat → Draw β) :
    Ensures (perIndividual each) s fun drawn s' =>
      drawn.size = s.1.popSize ∧ Redrawn s.1 s'.1 := by
  rw [perIndividual, ensures_bind, ensures_current]
  refine (drawEach_ensures _ _).mono fun drawn s' h => ⟨?_, h.2⟩
  rw [h.1, List.length_range]

/-- A step changes at most positions, fitness and which rows are stale. -/
def Repositions (run run' : Run α P) : Prop :=
  ∃ X F stale, run' = { run with X, F, stale }

theorem setPositions_ensures (X : Tensor α) (indices : Option (List Int)) :
    Ensures (setPositions X indices) s fun _ s' => Repositions s.1 s'.1 := by
  simp only [setPositions, ensures_bind, ensures_current]
  cases indices with
  | none =>
    simp only [ensures_bind, ensures_ofExcept, ensures_update]
    intro rows _
    exact ⟨_, _, _, rfl⟩
  | some indices =>
    simp only [ensures_bind, ensures_ofExcept, ensures_update]
    intro rows _ places _
    exact ⟨_, _, _, rfl⟩

theorem replace_ensures (indices : List Int) (X F : Tensor α) :
    Ensures (replace indices X F) s fun _ s' => Repositions s.1 s'.1 := by
  simp only [replace, ensures_ite, ensures_bind, ensures_current, ensures_pure]
  refine ⟨fun _ => ⟨s.1.X, s.1.F, s.1.stale, rfl⟩, fun _ => ?_⟩
  cases s.1.F with
  | none => simp
  | some stored =>
    simp only [ensures_bind, ensures_ofExcept, ensures_update, ensures_ite, ensures_throw]
    intro rows _ fitness _ places _
    refine ⟨fun _ => ⟨_, _, _, rfl⟩, fun _ => ⟨fun _ => ⟨_, _, _, rfl⟩, fun _ => trivial⟩⟩

end Search

end BoxSearch
