import BoxSearch.Proofs.Run.Underway

/-!
The shape of a run, whatever was done to it.

All arrays of a run agree on how many individuals, dimensions and objectives there are, and fitness
is stored only after a tracker was made for its width. The steps that evaluate, move or overwrite
rows keep it so, whether they succeed or break off halfway.
-/

namespace BoxSearch

section Blocks

variable {σ α P : Type}

/-- The block has an entry for every place of its shape, as arrays have. -/
abbrev Block.Full (block : Block α P) : Prop :=
  block.fitness.entries.size = Tensor.places block.fitness.shape

def Evaluator.Full [Scalar α] (evaluator : Evaluator σ α P) : Prop :=
  ∀ rows session block session', (evaluator rows).run session = (.ok block, session') → block.Full

/-- The rows of a block, if it has rows for `n` candidates, have the width that was found. -/
theorem Search.shaped_blockRows {n width : Nat} {block : Block α P} {raw : Rows α}
    (full : block.Full) (h : Search.blockRows n block = .ok (width, raw)) : raw.Shaped n width := by
  rw [Search.blockRows] at h
  split at h
  case h_1 => cases h
  case h_2 =>
    refine ⟨Tensor.size_rowsCount h, ?_⟩
    rw [Tensor.rowsCount] at h
    split at h
    · cases h
    split at h
    · cases h
    cases h
    intro x hx
    apply Tensor.even_cut (Nat.mul_div_le _ _)
    simpa using hx
  case h_3 count rest _ shape =>
    by_cases agrees : count = n
    · subst agrees
      rw [if_neg (by simp)] at h
      cases cut : block.fitness.rows? with
      | none =>
        rw [cut] at h
        cases h
      | some rows =>
        rw [cut] at h
        cases h
        refine ⟨Tensor.size_rows? cut shape, ?_⟩
        intro x hx
        exact Tensor.even_rows? full cut x (by simpa using hx)
    · rw [if_pos (by simpa using agrees)] at h
      cases h

end Blocks

namespace Run

variable {α P : Type} [Scalar α] {run run' : Run α P} {w : Nat}

/-- There is a tracker, and it was made for `w` objectives. -/
def Measured (w : Nat) (run : Run α P) : Prop :=
  run.tracker.isSome = true ∧ run.nObj = some (w : Int)

/-- The arrays of the run agree on its number of individuals, dimensions and objectives. -/
structure Formed (run : Run α P) : Prop where
  inhabited : 0 < run.popSize
  positions : run.X.Shaped run.popSize run.dim
  marks : run.stale.size = run.popSize
  measured : run.tracker.isSome = true → ∃ w, run.Measured w
  fitness : ∀ F, run.F = some F → ∃ w, run.Measured w ∧ F.Shaped run.popSize w

theorem Measured.unique {v : Nat} (h : run.Measured v) (h' : run.Measured w) : v = w := by
  have same := h.2.symm.trans h'.2
  simpa using same

/-- The first row of the fitness is as wide as the tracker expects. -/
theorem Formed.size_row (h : run.Formed) {F : Rows α} (stored : run.F = some F)
    (measured : run.Measured w) : F.Shaped run.popSize w ∧ (F.row 0).size = w := by
  obtain ⟨v, measured', shaped⟩ := h.fitness F stored
  obtain rfl := measured'.unique measured
  exact ⟨shaped, shaped.row h.inhabited⟩

theorem formed_start (bounds : Bounds α) {popSize : Nat} (inhabited : 0 < popSize)
    (nObj : Option Int) (frontLimit : Value) (seed : Nat) :
    (start bounds popSize nObj frontLimit seed : Run α P).Formed := by
  refine ⟨inhabited, ⟨Array.size_replicate, ?_⟩, Array.size_replicate, nofun, nofun⟩
  intro x hx
  rw [Array.eq_of_mem_replicate hx, Row.size_tabulate]
  rfl

/-- A change of the books keeps the shape, as long as the tracker and its width stay together. -/
theorem Formed.assessed (h : run.Formed) (nObj : Option Int) (tracker : Option (Tracker α P))
    (pending : Array (Batch α P)) (nEval nonFinite : Nat)
    (measured : tracker.isSome = true → ∃ w : Nat, nObj = some (w : Int))
    (kept : run.tracker.isSome = true → tracker.isSome = true ∧ nObj = run.nObj) :
    Formed { run with nObj, tracker, pending, nEval, nonFinite } := by
  refine ⟨h.inhabited, h.positions, h.marks, ?_, ?_⟩
  · intro tracked
    obtain ⟨w, known⟩ := measured tracked
    exact ⟨w, tracked, known⟩
  · intro F stored
    obtain ⟨w, ⟨tracked, known⟩, shaped⟩ := h.fitness F stored
    obtain ⟨tracked', same⟩ := kept tracked
    exact ⟨w, ⟨tracked', same.trans known⟩, shaped⟩

theorem Formed.registered (h : run.Formed) (registered : run.Registered w run') :
    run'.Formed ∧ run'.Measured w := by
  cases registered with
  | known tracked agrees =>
    obtain ⟨v, measured⟩ := h.measured tracked
    have same : (v : Int) = w := agrees v measured.2
    obtain rfl : v = w := by omega
    exact ⟨h, measured⟩
  | first fresh untracked =>
    refine ⟨h.assessed _ _ run.pending run.nEval run.nonFinite (fun _ => ⟨w, rfl⟩) ?_, rfl, rfl⟩
    simp [untracked]

theorem Formed.redrawn (h : run.Formed) (drawn : Search.Redrawn run run') : run'.Formed := by
  obtain ⟨streams, rfl⟩ := drawn
  exact ⟨h.inhabited, h.positions, h.marks, h.measured, h.fitness⟩

theorem Formed.put (h : run.Formed) (places : List Nat) (X : Rows α) :
    (run.put places X).Formed :=
  ⟨h.inhabited, h.positions.writeAt (Rows.shaped_clipRows _ X).each, h.marks, h.measured,
    h.fitness⟩

theorem Formed.mark (h : run.Formed) (places : List Nat) (stale : Bool) :
    (run.mark places stale).Formed :=
  ⟨h.inhabited, h.positions, (size_writeAt _ _ _).trans h.marks, h.measured, h.fitness⟩

theorem Formed.move (h : run.Formed) (places : List Nat) (X : Rows α) :
    (run.move places X).Formed :=
  (h.put places X).mark places true

/-- Fitness of the right width may be written into the population. -/
theorem Formed.rate (h : run.Formed) {F : Rows α} (stored : run.F = some F)
    (places : List Nat) {F' : Rows α} (width : ∀ f ∈ F', f.size = (F.row 0).size) :
    (run.rate places F').Formed := by
  apply Formed.mark
  refine ⟨h.inhabited, h.positions, h.marks, h.measured, fun G written => ?_⟩
  obtain ⟨w, measured, -⟩ := h.fitness F stored
  obtain ⟨shaped, first⟩ := h.size_row stored measured
  rw [first] at width
  have same : writeAt F places F' = G := by simpa [stored] using written
  rw [← same]
  exact ⟨w, measured, shaped.writeAt width⟩

/-- Fitness of the right width may be written even if there was none before. -/
theorem Formed.settle (h : run.Formed) (measured : run.Measured w) (places : List Nat)
    {F : Rows α} (some : 0 < F.size) (width : ∀ f ∈ F, f.size = w) :
    (run.settle places F).Formed := by
  apply Formed.mark
  refine ⟨h.inhabited, h.positions, h.marks, h.measured, fun G written => ?_⟩
  have known : Rows.Shaped run.popSize w (run.F.getD
      (Array.replicate run.popSize (Row.tabulate (F.row 0).size fun _ => Scalar.infinity))) := by
    cases stored : run.F with
    | some F' => exact (h.size_row stored measured).1
    | none =>
      have shaped : F.Shaped F.size w := ⟨rfl, width⟩
      refine ⟨Array.size_replicate, fun f hf => ?_⟩
      rw [Array.eq_of_mem_replicate hf, Row.size_tabulate]
      exact shaped.row some
  cases written
  exact ⟨w, measured, known.writeAt width⟩

end Run

namespace Search

open Run

variable {σ α P β : Type} [Scalar α] {s : Run α P × Session σ}

/-- Whichever way the computation ends, the run that it leaves is in shape. -/
abbrev KeepsForm (m : Search σ α P β) (s : Run α P × Session σ) : Prop :=
  Ends m s (fun s' => s'.1.Formed) fun _ s' => s'.1.Formed

theorem registerWidth_formed (h : s.1.Formed) (width : Nat) :
    Ends (registerWidth width) s (fun s' => s'.1.Formed) fun _ s' =>
      s'.1.Formed ∧ s'.1.Measured width ∧ Assesses s.1 s'.1 := by
  -- a tracker that cannot be made leaves the number of objectives behind
  have fails : Ends (registerWidth width : Search σ α P Unit) s (fun s' => s'.1.Formed)
      fun _ _ => True := by
    have rest (untracked : s.1.tracker = none) : Ends (do
        update fun run => { run with nObj := some (width : Int) }
        let tracker ← ofExcept (Tracker.start s.1.dim width s.1.frontLimit)
        update fun run => { run with tracker := some tracker }
        log (.objectivesDetected width)) s (fun s' => s'.1.Formed) fun _ _ => True := by
      simp only [ends_bind, ends_update, ends_ofExcept, ends_log, implies_true, true_and]
      intro _ _
      apply h.assessed _ s.1.tracker s.1.pending s.1.nEval s.1.nonFinite <;> simp [untracked]
    simp only [registerWidth, ends_bind, ends_current, ends_ite]
    constructor
    · intro _
      cases s.1.nObj <;> simp [h]
    · intro untracked
      have none : s.1.tracker = none := by simpa using untracked
      cases s.1.nObj with
      | none => exact rest none
      | some declared => exact ends_ite.mpr ⟨fun _ => h, fun _ => rest none⟩
  apply (fails.and_ensures (registerWidth_ensures width)).imp
  rintro _ ⟨run, session⟩ ⟨-, registered, -⟩
  refine ⟨(h.registered registered).1, (h.registered registered).2, ?_⟩
  cases registered <;> exact ⟨_, _, _, _, _, rfl⟩

theorem registerWidth_assesses (width : Nat) :
    Ends (registerWidth width) s (fun s' => Assesses s.1 s'.1) fun _ s' => Assesses s.1 s'.1 := by
  have same : Assesses s.1 s.1 := ⟨_, _, _, _, _, rfl⟩
  have rest : Ends (do
      update fun run => { run with nObj := some (width : Int) }
      let tracker ← ofExcept (Tracker.start s.1.dim width s.1.frontLimit)
      update fun run => { run with tracker := some tracker }
      log (.objectivesDetected width)) s (fun s' => Assesses s.1 s'.1)
      fun _ s' => Assesses s.1 s'.1 := by
    simp only [ends_bind, ends_update, ends_ofExcept, ends_log]
    exact ⟨fun _ _ => ⟨_, _, _, _, _, rfl⟩, fun _ _ => ⟨_, _, _, _, _, rfl⟩⟩
  simp only [registerWidth, ends_bind, ends_current, ends_ite]
  constructor
  · intro _
    cases s.1.nObj with
    | none => exact same
    | some earlier => exact ends_ite.mpr ⟨fun _ => same, fun _ => same⟩
  · intro _
    cases s.1.nObj with
    | none => exact rest
    | some declared => exact ends_ite.mpr ⟨fun _ => same, fun _ => rest⟩

variable {evaluator : Evaluator σ α P}

/-- An evaluation leaves the population and the streams as they are, also if it fails. -/
theorem evaluate_assesses (X : Rows α) :
    Ends (evaluate evaluator X) s (fun s' => Assesses s.1 s'.1)
      fun _ s' => Assesses s.1 s'.1 := by
  have same : Assesses s.1 s.1 := ⟨_, _, _, _, _, rfl⟩
  simp only [evaluate, ends_bind, ends_ite, ends_current, ends_pure, ends_ofExcept, ends_update]
  refine ⟨fun _ => same, fun _ => ?_⟩
  rw [ends_act]
  split
  case h_2 => exact same
  case h_1 block session answered =>
    refine ⟨fun shape _ => ⟨fun _ _ => ?_, fun _ _ => same⟩, fun _ _ => same⟩
    apply (registerWidth_assesses (s := (s.1, session)) shape.1).imp
    rintro _ s₁ ⟨_, _, _, _, _, registered⟩
    apply (ranked_ends shape.2).imp
    rintro F s₂ ⟨-, changed⟩
    rw [changed, registered]
    exact ⟨_, _, _, _, _, rfl⟩

/-- Candidates that are evaluated get one fitness row each, all as wide as the tracker expects. -/
theorem evaluate_formed (full : evaluator.Full) (h : s.1.Formed) (X : Rows α) :
    Ends (evaluate evaluator X) s (fun s' => s'.1.Formed) fun F s' =>
      s'.1.Formed ∧ Assesses s.1 s'.1 ∧
        (0 < X.size → ∃ w, s'.1.Measured w ∧ F.Shaped X.size w) := by
  simp only [evaluate, ends_bind, ends_ite, ends_current, ends_pure, ends_ofExcept, ends_update]
  constructor
  · intro empty
    have none : X.size = 0 := by simpa [Bounds.clipRows] using empty
    exact ⟨h, ⟨_, _, _, _, _, rfl⟩, by omega⟩
  · intro _
    rw [ends_act]
    split
    case h_2 => exact h
    case h_1 block session answered =>
      refine ⟨fun shape shaped => ⟨fun _ _ => ?_, fun _ _ => h⟩, fun _ _ => h⟩
      have rows := shaped_blockRows (full _ _ _ _ answered) shaped
      rw [Bounds.size_clipRows] at rows
      apply (registerWidth_formed (s := (s.1, session)) h shape.1).imp
      rintro _ s₁ ⟨formed, ⟨tracked, known⟩, assessed⟩
      apply (ranked_ends shape.2).imp
      rintro F s₂ ⟨rfl, changed⟩
      rw [changed]
      refine ⟨?_, ?_, fun _ => ⟨shape.1, ⟨tracked, known⟩, rows.rankedRows⟩⟩
      · exact formed.assessed _ _ _ _ _ (fun _ => ⟨_, known⟩) fun tracked => ⟨tracked, rfl⟩
      · obtain ⟨_, _, _, _, _, same⟩ := assessed
        rw [same]
        exact ⟨_, _, _, _, _, rfl⟩

theorem evaluateAll_formed (full : evaluator.Full) (h : s.1.Formed) :
    KeepsForm (evaluateAll evaluator) s := by
  simp only [evaluateAll, KeepsForm, ends_bind, ends_ite, ends_current, ends_pure, ends_update]
  refine ⟨fun _ => h, fun filled => ?_⟩
  have some : 0 < (s.1.stalePlaces.map s.1.X.row).toArray.size := by
    simpa [List.length_pos_iff] using filled
  apply (evaluate_formed full h _).imp
  rintro F s₁ ⟨formed, -, measured⟩
  obtain ⟨w, measured, shaped⟩ := measured some
  apply formed.settle measured _ _ shaped.each
  rwa [shaped.size]

theorem updateBest_formed (h : s.1.Formed) : KeepsForm (updateBest : Search σ α P Unit) s := by
  have folded (run : Run α P) (same : run = s.1) (tracker : Option (Tracker α P))
      (kept : tracker.isSome = s.1.tracker.isSome) : Formed { run with tracker, pending := #[] } := by
    rw [same]
    apply h.assessed s.1.nObj tracker #[] s.1.nEval s.1.nonFinite
    · intro tracked
      obtain ⟨w, -, known⟩ := h.measured (kept ▸ tracked)
      exact ⟨w, known⟩
    · intro tracked
      exact ⟨kept.trans tracked, rfl⟩
  simp only [updateBest, KeepsForm, ends_bind, ends_current]
  cases tracked : s.1.tracker with
  | none => exact folded s.1 rfl s.1.tracker rfl
  | some t =>
    simp only [ends_bind, ends_ite, ends_throw, ends_update]
    refine ⟨fun _ => h, fun _ => ?_⟩
    refine (ends_forM (fun s' => s'.1 = s.1) rfl fun _ _ s₁ same => ?_).imp fun _ s₁ same => ?_
    · rwa [ends_log]
    · exact folded s₁.1 same _ (by simp [tracked])

theorem setPositions_formed (h : s.1.Formed) (X : Tensor α) (indices : Option (List Int)) :
    KeepsForm (setPositions X indices) s := by
  simp only [setPositions, KeepsForm, ends_bind, ends_current]
  cases indices with
  | none =>
    simp only [ends_bind, ends_ofExcept, ends_update]
    exact ⟨fun rows _ => h.move _ rows, fun _ _ => h⟩
  | some indices =>
    simp only [ends_bind, ends_ofExcept, ends_update]
    exact ⟨fun rows _ => ⟨fun places _ => h.move places rows, fun _ _ => h⟩, fun _ _ => h⟩

theorem replace_formed (h : s.1.Formed) (indices : List Int) (X F : Tensor α) :
    KeepsForm (replace indices X F) s := by
  simp only [replace, KeepsForm, ends_ite, ends_bind, ends_current, ends_pure]
  refine ⟨fun _ => h, fun _ => ?_⟩
  cases stored : s.1.F with
  | none => exact h
  | some F' =>
    simp only [ends_bind, ends_ofExcept, ends_update, ends_ite, ends_throw]
    refine ⟨fun rows _ => ⟨fun fitness read => ⟨fun places _ => ?_, fun _ _ => h⟩, fun _ _ => h⟩,
      fun _ _ => h⟩
    have put := h.put places rows
    refine ⟨fun wide => ?_, fun _ => ⟨fun _ => ?_, fun _ => put⟩⟩
    · apply put.rate stored
      intro f hf
      rw [Tensor.rowsCount] at read
      split at read
      · cases read
      split at read
      · cases read
      cases read
      rw [← eq_of_beq wide]
      exact Tensor.even_cut (Nat.mul_div_le _ _) f (by simpa using hf)
    · apply put.rate stored
      intro f hf
      obtain ⟨g, -, rfl⟩ := Array.mem_map.mp hf
      exact Row.size_tabulate _ _

theorem seed_formed (h : s.1.Formed) {X F : Rows α} {width : Nat}
    (positions : X.Shaped s.1.popSize s.1.dim) (fitness : F.Shaped s.1.popSize width) :
    KeepsForm (seed X F width : Search σ α P Unit) s := by
  simp only [seed, KeepsForm, ends_bind, ends_current, ends_update, ends_log]
  apply (registerWidth_formed h width).imp
  rintro _ s₁ ⟨formed, ⟨tracked, known⟩, assessed⟩
  apply (ranked_ends F).imp
  rintro _ s₂ ⟨rfl, changed⟩
  obtain ⟨_, _, _, _, _, same⟩ := assessed
  have popSize : s₁.1.popSize = s.1.popSize := by rw [same]
  have bounds : s₁.1.bounds = s.1.bounds := by rw [same]
  rw [changed]
  refine ⟨formed.inhabited, ?_, Array.size_replicate, formed.measured, ?_⟩
  · change X.Shaped s₁.1.popSize s₁.1.bounds.dim
    rw [popSize, bounds]
    exact positions
  · intro F' written
    cases written
    refine ⟨width, ⟨tracked, known⟩, ?_⟩
    change Rows.Shaped s₁.1.popSize width _
    rw [popSize]
    exact fitness.rankedRows

end Search

namespace Run

open Search

variable {σ P : Type} {evaluator : Evaluator σ Float P} {s : Run Float P × Session σ}

theorem call_formed (full : evaluator.Full) (h : s.1.Formed) (call : Call σ) :
    KeepsForm (call.perform evaluator) s := by
  cases call with
  | populate initializer =>
    simp only [Call.perform, Initial.populate, KeepsForm, ends_bind, ends_current, ends_ite,
      ends_throw]
    apply (Initial.redraws_sample initializer).mono
    · exact fun s₁ drawn => h.redrawn drawn
    · intro pool s₁ drawn
      have formed := h.redrawn drawn
      exact ⟨fun _ => formed, fun _ => setPositions_formed formed pool none⟩
  | evaluate X =>
    simp only [Call.perform, evaluateArray, KeepsForm, bind_assoc, ends_bind, ends_current,
      ends_ofExcept, ends_pure]
    refine ⟨fun rows _ => ?_, fun _ _ => h⟩
    exact (evaluate_formed full h rows).imp fun _ _ outcome => outcome.1
  | evaluateAll =>
    simp only [Call.perform, KeepsForm, ends_bind, ends_pure]
    exact evaluateAll_formed full h
  | seed X F =>
    simp only [Call.perform, Initial.adopt, KeepsForm, ends_bind, ends_current, ends_ofExcept]
    refine ⟨fun p read => ?_, fun _ _ => h⟩
    obtain ⟨_, _, _, _, passed⟩ := Population.checked_of_ofValues read
    obtain ⟨_, _, sizeX, sizeF⟩ := Population.of_check passed
    have even := Population.even_of_ofValues read
    apply seed_formed h
    · exact ⟨sizeX, fun x hx => even.X x (by simpa using hx)⟩
    · exact ⟨sizeF, fun f hf => even.F f (by simpa using hf)⟩
  | setPositions X indices => exact setPositions_formed h X indices
  | replace indices X F => exact replace_formed h indices X F
  | completeGeneration => exact ⟨h.inhabited, h.positions, h.marks, h.measured, h.fitness⟩
  | updateBest => exact updateBest_formed h

/-- The states that calls lead to, one after another and in any order. A call that fails leaves a
state, too. What happens in between may change the session, the streams, and what is remembered
beside the population. -/
inductive Visited (evaluator : Evaluator σ Float P) : Run Float P × Session σ → Prop
  | start (bounds : Bounds Float) {popSize : Nat} (inhabited : 0 < popSize) (nObj : Option Int)
      (frontLimit : Value) (seed : Nat) (session : Session σ) :
      Visited evaluator (.start bounds popSize nObj frontLimit seed, session)
  | called {s : Run Float P × Session σ} (visited : Visited evaluator s) (call : Call σ) :
      Visited evaluator ((call.perform evaluator).run s).2
  | aside {run : Run Float P} {session : Session σ} (visited : Visited evaluator (run, session))
      (streams : Streams) (swarm : Swarm.Memory Float) (remarks : List (String × Note Float))
      (session' : Session σ) :
      Visited evaluator ({ run with streams, swarm, remarks }, session')

theorem visited_formed (full : evaluator.Full) (visited : Visited evaluator s) : s.1.Formed := by
  induction visited with
  | start bounds inhabited nObj frontLimit seed session =>
    exact formed_start bounds inhabited nObj frontLimit seed
  | called _ call formed => exact (call_formed full formed call).after
  | aside _ streams swarm remarks session' formed =>
    exact ⟨formed.inhabited, formed.positions, formed.marks, formed.measured, formed.fitness⟩

end Run

end BoxSearch
