import BoxSearch.Proofs.Run.Fidelity
import BoxSearch.Proofs.Run.Ledger
import BoxSearch.Proofs.Run.Outcomes
import BoxSearch.Proofs.Scalar.Sign

/-!
A run whose points all lie in the box.

The points of a run are the rows of its population, those of the batches that wait, those that the
tracker holds and the best places of a swarm. Rows enter by being moved into the box, which brings
every row without a "not a number" inside, or after a check that they are inside already. Every step
keeps the points inside, also one that fails halfway, and so it does with whatever the evaluator
keeps as long as it is shown rows of the box only.
-/

namespace BoxSearch

section Box

variable {α : Type} [Scalar α]

theorem Scalar.clamp_mem [OrderedScalar α] {a low high : α} (number : isNaN a = false)
    (h : low ≤ high) : low ≤ clamp a low high ∧ clamp a low high ≤ high := by
  open OrderedScalar in
  have ha := isNaN_eq_false_iff.mp number
  obtain ⟨hlow, hhigh⟩ := le_self_of_le h
  -- raised to the lower border first, the number is a number that is not below it
  have raised : larger a low ≤ larger a low ∧ low ≤ larger a low := by
    by_cases above : low < a
    · simp [larger, above, ha, le_of_lt above]
    · simp [larger, above, number, hlow]
  rw [clamp]
  generalize larger a low = r at raised
  have number' : isNaN r = false := isNaN_eq_false_iff.mpr raised.1
  by_cases below : r < high
  · simp [smaller, below, raised.2, le_of_lt below]
  · simp [smaller, below, number', h, hhigh]

namespace Row

theorem numeric_gene [SignedScalar α] {x : Row α} (h : x.Numeric) (j : Nat) :
    Scalar.isNaN (x.gene j) = false := by
  by_cases inside : j < x.size
  · exact h j inside
  · have beyond : x.gene j = Scalar.zero := by simp [gene, inside]
    rw [beyond]
    exact Scalar.isNaN_eq_false_iff.mpr SignedScalar.zero_le_zero

theorem numeric_of_mem {x : Row α} (h : ∀ a ∈ x, Scalar.isNaN a = false) : x.Numeric := by
  intro j hj
  have here : x.gene j = x[j] := by simp [gene, hj]
  rw [here]
  exact h _ (Array.getElem_mem hj)

end Row

namespace Bounds

variable (b : Bounds α)

/-- The vector has one entry per dimension, each in the interval of that dimension. -/
def Inside (x : Row α) : Prop :=
  x.size = b.dim ∧ ∀ j < b.dim, b.lower.gene j ≤ x.gene j ∧ x.gene j ≤ b.upper.gene j

instance (x : Row α) : Decidable (b.Inside x) :=
  inferInstanceAs (Decidable (_ ∧ _))

variable {b}

theorem Inside.numeric [OrderedScalar α] {x : Row α} (h : b.Inside x) : x.Numeric := by
  intro j hj
  have bounded := h.2 j (by rwa [← h.1])
  exact Scalar.isNaN_eq_false_iff.mpr (OrderedScalar.le_self_of_le bounded.1).2

/-- A vector without a "not a number" is inside once it has been moved there, however far out it
was. -/
theorem inside_clip [SignedScalar α] {x : Row α} (h : x.Numeric) : b.Inside (b.clip x) := by
  refine ⟨b.size_clip x, fun j hj => ?_⟩
  rw [clip, Row.gene_tabulate _ _ hj]
  exact Scalar.clamp_mem (x.numeric_gene h j) (b.ordered j hj)

theorem inside_clipRows [SignedScalar α] {X : Rows α} (h : ∀ x ∈ X, x.Numeric) :
    ∀ x ∈ b.clipRows X, b.Inside x := by
  intro x hx
  obtain ⟨y, hy, rfl⟩ := Array.mem_map.mp hx
  exact inside_clip (h y hy)

theorem inside_of_holds {x : Row α} (size : x.size = b.dim) (h : b.holds x = true) :
    b.Inside x := by
  refine ⟨size, fun j hj => ?_⟩
  have here := List.all_eq_true.mp h j (List.mem_range.mpr hj)
  simpa using here

end Bounds

/-- No row of a batch has a "not a number" in it. -/
def Rows.Numeric (X : Rows α) : Prop :=
  ∀ x ∈ X, Row.Numeric x

theorem Rows.numeric_row {X : Rows α} (h : X.Numeric) (i : Nat) : (X.row i).Numeric := by
  by_cases inside : i < X.size
  · have here : X.row i = X[i] := by simp [Rows.row, inside]
    rw [here]
    exact h _ (Array.getElem_mem inside)
  · have beyond : X.row i = #[] := by simp [Rows.row, inside]
    rw [beyond]
    intro j inside
    cases inside

/-- No entry of an array is "not a number". -/
def Tensor.Numeric (t : Tensor α) : Prop :=
  ∀ a ∈ t.entries, Scalar.isNaN a = false

instance Tensor.decidableNumeric (t : Tensor α) : Decidable t.Numeric :=
  inferInstanceAs (Decidable (∀ a ∈ t.entries, Scalar.isNaN a = false))

theorem Tensor.numeric_cut {entries : Array α} (h : ∀ a ∈ entries, Scalar.isNaN a = false)
    (count width : Nat) : Rows.Numeric (cut count width entries) := by
  intro x hx
  obtain ⟨i, _, rfl⟩ := Array.mem_map.mp hx
  exact Row.numeric_of_mem fun a ha => h a (mem_of_mem_extract ha)

theorem Tensor.numeric_rowsExactly {t : Tensor α} (h : t.Numeric) {count width : Nat}
    {rows : Rows α} (cut : t.rowsExactly count width = .ok rows) : rows.Numeric := by
  rw [rowsExactly] at cut
  split at cut
  · cases cut
    exact numeric_cut h _ _
  · cases cut

theorem mem_writeAt {β : Type} {xs values : Array β} {places : List Nat} {b : β}
    (h : b ∈ writeAt xs places values) : b ∈ xs ∨ b ∈ values := by
  have loop (pairs : List (Nat × β)) (xs : Array β)
      (h : b ∈ pairs.foldl (fun xs pair => xs.setIfInBounds pair.1 pair.2) xs) :
      b ∈ xs ∨ ∃ pair ∈ pairs, pair.2 = b := by
    induction pairs generalizing xs with
    | nil => exact .inl h
    | cons pair pairs ih =>
      rcases ih _ h with before | ⟨later, mem, same⟩
      · rcases Array.mem_or_eq_of_mem_setIfInBounds before with old | new
        · exact .inl old
        · exact .inr ⟨pair, List.mem_cons_self, new.symm⟩
      · exact .inr ⟨later, List.mem_cons_of_mem _ mem, same⟩
  rcases loop _ _ h with old | ⟨pair, mem, rfl⟩
  · exact .inl old
  · exact .inr (by simpa using (List.of_mem_zip mem).2)

end Box

namespace Tracker

variable {α P : Type} [Scalar α]

/-- After a batch the points of a tracker are points that it held before and rows of the batch. -/
theorem point_fold {t : Tracker α P} {b : Batch α P} (size : b.F.size = b.X.size)
    {m : Member α P} (h : m ∈ (t.fold b).1.held) :
    (∃ m' ∈ t.held, m.x = m'.x) ∨ m.x ∈ b.X := by
  have row {i : Nat} (hi : i < b.X.size) : b.X.row i ∈ b.X := by
    simp [Rows.row, hi]
  cases t with
  | several s =>
    have suits : ∀ n ∈ b.members, (several s : Tracker α P).Suits n := fun _ _ => trivial
    rcases held_fold size suits h with before | new
    · exact .inl ⟨m, before, rfl⟩
    · obtain ⟨i, hi, rfl⟩ := List.mem_map.mp new
      exact .inr (row (List.mem_range.mp hi))
  | single s =>
    rw [fold, Incumbent.offerBatch] at h
    cases least : Scalar.argMin? (b.F.column 0) with
    | none =>
      rw [least] at h
      exact .inl ⟨m, h, rfl⟩
    | some i =>
      rw [least] at h
      have below := Scalar.argMin?_lt least
      rw [Rows.column, Array.size_map, size] at below
      dsimp only [Incumbent.offer] at h
      split at h
      · have new : m.x = b.X.row i := by
          simp only [held, Option.toList_some, List.map_cons, List.map_nil,
            List.mem_singleton] at h
          rw [h]
        exact .inr (new ▸ row below)
      · exact .inl ⟨m, h, rfl⟩

theorem point_foldAll {t : Tracker α P} {batches : Array (Batch α P)}
    (size : ∀ b ∈ batches, b.F.size = b.X.size) {m : Member α P}
    (h : m ∈ (t.foldAll batches).held) :
    (∃ m' ∈ t.held, m.x = m'.x) ∨ ∃ b ∈ batches, m.x ∈ b.X := by
  obtain ⟨batches⟩ := batches
  rw [foldAll, List.foldl_toArray] at h
  simp only [List.mem_toArray] at size ⊢
  induction batches generalizing t with
  | nil => exact .inl ⟨m, h, rfl⟩
  | cons b batches ih =>
    have sizeRest : ∀ c ∈ batches, c.F.size = c.X.size :=
      fun c hc => size c (List.mem_cons_of_mem _ hc)
    rcases ih h sizeRest with ⟨m', before, same⟩ | ⟨c, hc, later⟩
    · rcases point_fold (size b List.mem_cons_self) before with ⟨m'', earlier, same'⟩ | here
      · exact .inl ⟨m'', earlier, same.trans same'⟩
      · exact .inr ⟨b, List.mem_cons_self, same ▸ here⟩
    · exact .inr ⟨c, List.mem_cons_of_mem _ hc, later⟩

end Tracker

/-- Every point that the run keeps beside its population lies in its box. -/
structure Run.Stored {α P : Type} [Scalar α] (run : Run α P) : Prop where
  waiting : ∀ b ∈ run.pending, b.F.size = b.X.size ∧ ∀ x ∈ b.X, run.bounds.Inside x
  held : ∀ t, run.tracker = some t → ∀ m ∈ t.held, run.bounds.Inside m.x
  bests : ∀ B, run.swarm.bestX = some B → B.size = run.popSize ∧ ∀ x ∈ B, run.bounds.Inside x

/-- Every point that the run keeps lies in its box. -/
structure Run.Boxed {α P : Type} [Scalar α] (run : Run α P) : Prop extends Run.Stored run where
  size : run.X.size = run.popSize
  rows : ∀ x ∈ run.X, run.bounds.Inside x

/-- The points of the run lie in the box, and the user's state has a property. -/
structure Run.Safe {σ α P : Type} [Scalar α] (box : Bounds α) (J : σ → Prop)
    (s : Run α P × Session σ) : Prop where
  bounds : s.1.bounds = box
  boxed : s.1.Boxed
  kept : J s.2.user

/-- Shown rows of the box only, the evaluator keeps a property of the user's state. -/
def Evaluator.Keeps {σ α P : Type} [Scalar α] (box : Bounds α) (J : σ → Prop)
    (evaluator : Evaluator σ α P) : Prop :=
  ∀ rows : Rows α, (∀ x ∈ rows, box.Inside x) → ∀ session, J session.user →
    J ((evaluator rows).run session).2.user

namespace Run

variable {σ P : Type} {box : Bounds Float} {J : σ → Prop} {run run' : Run Float P}

theorem boxed_put (h : run.Boxed) {X : Rows Float} (numeric : X.Numeric) (places : List Nat) :
    (run.put places X).Boxed := by
  refine ⟨⟨h.waiting, h.held, h.bests⟩, (size_writeAt _ _ _).trans h.size, fun x hx => ?_⟩
  rcases mem_writeAt hx with old | new
  · exact h.rows x old
  · exact Bounds.inside_clipRows numeric x new

theorem boxed_mark (h : run.Boxed) (places : List Nat) (stale : Bool) :
    (run.mark places stale).Boxed :=
  ⟨⟨h.waiting, h.held, h.bests⟩, h.size, h.rows⟩

theorem boxed_move (h : run.Boxed) {X : Rows Float} (numeric : X.Numeric) (places : List Nat) :
    (run.move places X).Boxed :=
  boxed_mark (boxed_put h numeric places) _ _

theorem boxed_rate (h : run.Boxed) (places : List Nat) (F : Rows Float) :
    (run.rate places F).Boxed :=
  ⟨⟨h.waiting, h.held, h.bests⟩, h.size, h.rows⟩

theorem boxed_overwrite (h : run.Boxed) {X : Rows Float} (numeric : X.Numeric)
    (places : List Nat) (F : Rows Float) : (run.overwrite places X F).Boxed :=
  boxed_rate (boxed_put h numeric places) _ _

theorem boxed_settle (h : run.Boxed) (places : List Nat) (F : Rows Float) :
    (run.settle places F).Boxed :=
  ⟨⟨h.waiting, h.held, h.bests⟩, h.size, h.rows⟩

theorem boxed_accept (h : run.Boxed) {X : Rows Float} (numeric : X.Numeric) (stored : Rows Float)
    (places : List Nat) (F : Rows Float) : (run.accept stored places X F).2.Boxed := by
  refine boxed_overwrite h (fun x hx => numeric x ?_) _ _
  simp only [selected, List.mem_toArray, List.mem_map, List.mem_filter] at hx
  obtain ⟨⟨_, y⟩, ⟨mem, _⟩, rfl⟩ := hx
  exact Array.mem_toList_iff.mp (List.of_mem_zip mem).2

/-- A tracker that has just been made holds no points. -/
theorem stored_registered {width : Nat} (h : run.Stored) (registered : run.Registered width run') :
    run'.Stored ∧ run'.bounds = run.bounds ∧ run'.popSize = run.popSize := by
  cases registered with
  | known => exact ⟨h, rfl, rfl⟩
  | first fresh _ _ start =>
    refine ⟨⟨h.waiting, fun t ht m hm => ?_, h.bests⟩, rfl, rfl⟩
    cases ht
    rw [(Tracker.held_start start).1] at hm
    cases hm

theorem boxed_folded (h : run.Boxed) :
    Boxed { run with tracker := run.tracker.map (·.foldAll run.pending), pending := #[] } := by
  refine ⟨⟨by simp, fun t ht m hm => ?_, h.bests⟩, h.size, h.rows⟩
  obtain ⟨t', tracked, rfl⟩ := Option.map_eq_some_iff.mp ht
  rcases Tracker.point_foldAll (fun b hb => (h.waiting b hb).1) hm with ⟨m', old, same⟩ | ⟨b, hb, new⟩
  · rw [same]
    exact h.held t' tracked m' old
  · exact (h.waiting b hb).2 _ new

theorem boxed_redrawn (h : run.Boxed) (drawn : Search.Redrawn run run') : run'.Boxed := by
  obtain ⟨streams, rfl⟩ := drawn
  exact ⟨⟨h.waiting, h.held, h.bests⟩, h.size, h.rows⟩

end Run

namespace Search

open Run

variable {σ P : Type} {box : Bounds Float} {J : σ → Prop} {s s' : Run Float P × Session σ}
  {β : Type}

/-- From a safe state the computation leaves a safe state, also if it fails. -/
abbrev Preserves (box : Bounds Float) (J : σ → Prop) (m : Search σ Float P β)
    (s : Run Float P × Session σ) : Prop :=
  Ends m s (Safe box J) fun _ s' => Safe box J s'

theorem safe_redrawn (h : Safe box J s) (drawn : Redrawn s.1 s'.1 ∧ s'.2 = s.2) :
    Safe box J s' := by
  obtain ⟨⟨streams, changed⟩, session⟩ := drawn
  refine ⟨?_, boxed_redrawn h.boxed ⟨streams, changed⟩, session ▸ h.kept⟩
  rw [changed]
  exact h.bounds

theorem draw_preserves (h : Safe box J s) (id : StreamId) (d : Draw β) :
    Preserves box J (draw id d) s :=
  (draw_ends id d).mono (fun _ => safe_redrawn h) fun _ _ => safe_redrawn h

theorem perIndividual_preserves (h : Safe box J s) (each : Nat → Draw β) :
    Preserves box J (perIndividual each) s :=
  (perIndividual_ends each).mono (fun _ => safe_redrawn h) fun _ _ => safe_redrawn h

theorem registerWidth_preserves (h : Safe box J s) (width : Nat) :
    Preserves box J (registerWidth width) s := by
  have counted : Safe box J ({ s.1 with nObj := some (width : Int) }, s.2) :=
    ⟨h.bounds, ⟨⟨h.boxed.waiting, h.boxed.held, h.boxed.bests⟩, h.boxed.size, h.boxed.rows⟩, h.kept⟩
  have rest : Preserves box J (do
      update fun run => { run with nObj := some (width : Int) }
      let tracker ← ofExcept (Tracker.start s.1.dim width s.1.frontLimit)
      update fun run => { run with tracker := some tracker }
      log (.objectivesDetected width)) s := by
    simp only [Preserves, ends_bind, ends_update, ends_ofExcept, ends_log]
    refine ⟨fun fresh start => ?_, fun _ _ => counted⟩
    refine ⟨h.bounds, ⟨⟨h.boxed.waiting, fun t ht m hm => ?_, h.boxed.bests⟩, h.boxed.size,
      h.boxed.rows⟩, h.kept⟩
    cases ht
    rw [(Tracker.held_start start).1] at hm
    cases hm
  simp only [registerWidth, Preserves, ends_bind, ends_current, ends_ite]
  refine ⟨fun _ => ?_, fun _ => ?_⟩
  · cases s.1.nObj with
    | none => exact h
    | some earlier => simp [h]
  · cases s.1.nObj with
    | none => exact rest
    | some declared => exact (ends_ite).mpr ⟨fun _ => h, fun _ => rest⟩

theorem ranked_preserves (h : Safe box J s) (F : Rows Float) :
    Ends (ranked F) s (Safe box J) fun F' s' => Safe box J s' ∧ F' = Fitness.rankedRows F := by
  have counted (session : Session σ) (same : session.user = s.2.user) :
      Safe box J ({ s.1 with nonFinite := s.1.nonFinite + Fitness.unrankedCount F }, session) :=
    ⟨h.bounds, ⟨⟨h.boxed.waiting, h.boxed.held, h.boxed.bests⟩, h.boxed.size, h.boxed.rows⟩,
      same ▸ h.kept⟩
  simp only [ranked, ends_bind, ends_ite, ends_current, ends_log, ends_update, ends_pure, and_true]
  exact ⟨fun _ => ⟨fun _ => counted _ rfl, fun _ => counted _ rfl⟩, fun _ => h⟩

/-- Evaluation shows the evaluator rows of the box only, and notes them down. -/
theorem evaluate_preserves {evaluator : Evaluator σ Float P} (keeps : evaluator.Keeps box J)
    (h : Safe box J s) {X : Rows Float} (numeric : X.Numeric) :
    Preserves box J (evaluate evaluator X) s := by
  have inside := Bounds.inside_clipRows (b := s.1.bounds) numeric
  simp only [evaluate, Preserves, ends_bind, ends_ite, ends_current, ends_pure, ends_ofExcept,
    ends_update]
  refine ⟨fun _ => h, fun _ => ?_⟩
  rw [ends_act]
  have kept := keeps (s.1.bounds.clipRows X) (by rwa [← h.bounds]) s.2 h.kept
  split
  case h_2 e session answered =>
    rw [answered] at kept
    exact ⟨h.bounds, h.boxed, kept⟩
  case h_1 block session answered =>
    rw [answered] at kept
    have asked : Safe box J (s.1, session) := ⟨h.bounds, h.boxed, kept⟩
    refine ⟨fun shape shaped => ⟨fun _ _ => ?_, fun _ _ => asked⟩, fun _ _ => asked⟩
    have sized : shape.2.size = (s.1.bounds.clipRows X).size := size_blockRows shaped
    apply (registerWidth_preserves asked shape.1).imp
    intro _ s₁ safe₁
    apply (ranked_preserves safe₁ shape.2).imp
    rintro F s₂ ⟨safe₂, rfl⟩
    refine ⟨safe₂.bounds, ⟨⟨fun b hb => ?_, safe₂.boxed.held, safe₂.boxed.bests⟩,
      safe₂.boxed.size, safe₂.boxed.rows⟩, safe₂.kept⟩
    rcases Array.mem_push.mp hb with before | rfl
    · exact safe₂.boxed.waiting b before
    · refine ⟨(Fitness.size_rankedRows _).trans sized, fun x hx => ?_⟩
      rw [safe₂.bounds, ← h.bounds]
      exact inside x hx

theorem numeric_staleRows {run : Run Float P} (h : run.Boxed) : (staleRows run).Numeric := by
  intro x hx
  simp only [staleRows, List.mem_toArray, List.mem_map] at hx
  obtain ⟨i, _, rfl⟩ := hx
  exact Rows.numeric_row (fun y hy => (h.rows y hy).numeric) i

theorem evaluateAll_preserves {evaluator : Evaluator σ Float P} (keeps : evaluator.Keeps box J)
    (h : Safe box J s) : Preserves box J (evaluateAll evaluator) s := by
  simp only [evaluateAll, Preserves, ends_bind, ends_ite, ends_current, ends_pure, ends_update]
  refine ⟨fun _ => h, fun _ => ?_⟩
  apply (evaluate_preserves keeps h (numeric_staleRows h.boxed)).imp
  intro F s₁ safe
  exact ⟨safe.bounds, boxed_settle safe.boxed _ _, safe.kept⟩

theorem evaluateAccept_preserves {evaluator : Evaluator σ Float P} (keeps : evaluator.Keeps box J)
    (h : Safe box J s) {X : Rows Float} (numeric : X.Numeric) :
    Preserves box J (evaluateAccept evaluator X) s := by
  simp only [evaluateAccept, Preserves, ends_bind, ends_current, ends_ofExcept, ends_update]
  apply (evaluate_preserves keeps h numeric).imp
  intro F s₁ safe
  refine ⟨fun stored _ => ?_, fun _ _ => safe⟩
  exact ⟨safe.bounds, boxed_accept safe.boxed numeric _ _ _, safe.kept⟩

theorem updateBest_preserves (h : Safe box J s) :
    Preserves box J (updateBest : Search σ Float P Unit) s := by
  have told (s' : Run Float P × Session σ) (same : s'.1 = s.1 ∧ s'.2.user = s.2.user) :
      Safe box J s' :=
    ⟨same.1 ▸ h.bounds, same.1 ▸ h.boxed, same.2 ▸ h.kept⟩
  have folded := boxed_folded h.boxed
  simp only [updateBest, Preserves, ends_bind, ends_current]
  cases tracked : s.1.tracker with
  | none =>
    exact ⟨h.bounds, ⟨⟨by simp, h.boxed.held, h.boxed.bests⟩, h.boxed.size, h.boxed.rows⟩, h.kept⟩
  | some t =>
    simp only [ends_bind, ends_ite, ends_throw, ends_update]
    refine ⟨fun _ => h, fun _ => ?_⟩
    refine (ends_forM (fun s' => s'.1 = s.1 ∧ s'.2.user = s.2.user) ⟨rfl, rfl⟩ ?_).mono told ?_
    · intro _ _ s₁ same
      rw [ends_log]
      exact same
    · intro _ s₁ same
      refine ⟨same.1 ▸ h.bounds, ?_, same.2 ▸ h.kept⟩
      rw [tracked] at folded
      rw [same.1, ← Array.foldl_toList, foldl_foldBatch_fst, Array.foldl_toList]
      exact folded

/-- A population that is taken over takes the place of the one before. Its rows must be inside. -/
theorem boxed_seeded {run run' : Run Float P} {width : Nat} (h : run.Stored)
    (registered : run.Registered width run') {X F : Rows Float} (size : X.size = run.popSize)
    (sizeF : F.size = X.size) (inside : ∀ x ∈ X, run.bounds.Inside x) (nonFinite : Nat)
    (stale : Array Bool) :
    Boxed { run' with
      nonFinite, X, F := some F, stale, pending := run'.pending.push ⟨X, F, none⟩ } := by
  obtain ⟨stored, bounds, popSize⟩ := stored_registered h registered
  rw [← bounds] at inside
  refine ⟨⟨fun b hb => ?_, stored.held, stored.bests⟩, size.trans popSize.symm, inside⟩
  rcases Array.mem_push.mp hb with before | rfl
  · exact stored.waiting b before
  · exact ⟨sizeF, inside⟩

theorem seed_preserves (h : Safe box J s) {X F : Rows Float} {width : Nat}
    (size : X.size = s.1.popSize) (sizeF : F.size = X.size) (inside : ∀ x ∈ X, box.Inside x) :
    Preserves box J (seed X F width) s := by
  simp only [seed, Preserves, ends_bind, ends_current, ends_update, ends_log]
  apply ((registerWidth_preserves h width).and_ensures (registerWidth_ensures width)).imp
  intro _ s₁ h₁
  obtain ⟨safe₁, registered, _⟩ := h₁
  apply ((ranked_preserves safe₁ F).and_ensures (ranked_ensures F)).imp
  rintro _ s₂ ⟨⟨safe₂, rfl⟩, _, changed, _⟩
  have ranked : (Fitness.rankedRows F).size = X.size := (Fitness.size_rankedRows F).trans sizeF
  rw [← h.bounds] at inside
  refine ⟨safe₂.bounds, ?_, safe₂.kept⟩
  rw [changed]
  exact boxed_seeded h.boxed.toStored registered size ranked inside _ _

theorem setPositions_preserves (h : Safe box J s) {X : Tensor Float} (numeric : X.Numeric)
    (indices : Option (List Int)) : Preserves box J (setPositions X indices) s := by
  have moved {rows : Rows Float} {count width : Nat} (cut : X.rowsExactly count width = .ok rows)
      (places : List Nat) : Safe box J (s.1.move places rows, s.2) :=
    ⟨h.bounds, boxed_move h.boxed (Tensor.numeric_rowsExactly numeric cut) places, h.kept⟩
  simp only [setPositions, Preserves, ends_bind, ends_current]
  cases indices with
  | none =>
    simp only [ends_bind, ends_ofExcept, ends_update]
    exact ⟨fun rows cut => moved cut _, fun _ _ => h⟩
  | some indices =>
    simp only [ends_bind, ends_ofExcept, ends_update]
    exact ⟨fun rows cut => ⟨fun places _ => moved cut places, fun _ _ => h⟩, fun _ _ => h⟩

theorem replace_preserves (h : Safe box J s) {X : Tensor Float} (numeric : X.Numeric)
    (indices : List Int) (F : Tensor Float) : Preserves box J (replace indices X F) s := by
  simp only [replace, Preserves, ends_ite, ends_bind, ends_current, ends_pure]
  refine ⟨fun _ => h, fun _ => ?_⟩
  cases s.1.F with
  | none => exact h
  | some stored =>
    simp only [ends_bind, ends_ofExcept, ends_update, ends_ite, ends_throw]
    refine ⟨fun rows cut => ⟨fun fitness _ => ⟨fun places _ => ?_, fun _ _ => h⟩, fun _ _ => h⟩,
      fun _ _ => h⟩
    have put := boxed_put h.boxed (Tensor.numeric_rowsExactly numeric cut) places
    have rated (F : Rows Float) : Safe box J (((s.1.put places rows).rate places F), s.2) :=
      ⟨h.bounds, boxed_rate put places F, h.kept⟩
    exact ⟨fun _ => rated _, fun _ => ⟨fun _ => rated _, fun _ => ⟨h.bounds, put, h.kept⟩⟩⟩

end Search

namespace Population

/-- A check on a population lets through rows of the box only. -/
theorem inside_of_check {X F : Tensor Float} {n : Nat} {b : Bounds Float} {declared : Option Int}
    {p : Evaluated Float} (h : check X F n b declared = .ok p) (even : p.Even b.dim) :
    ∀ x ∈ p.X, b.Inside x := by
  have held : b.holdsRows p.X = true := by
    obtain ⟨positions, fitness, -, -⟩ := of_check h
    rw [check, positions, fitness] at h
    split at h
    · cases h
    dsimp only at h
    split at h
    · cases h
    split at h
    · cases h
    by_cases outside : (!b.holdsRows p.X) = true
    · rw [if_pos outside] at h
      cases h
    · simpa using outside
  intro x hx
  apply Bounds.inside_of_holds (even.X x (Array.mem_toList_iff.mpr hx))
  rw [Bounds.holdsRows, Array.all_eq_true] at held
  obtain ⟨i, hi, rfl⟩ := Array.mem_iff_getElem.mp hx
  exact held i hi

end Population

namespace Initial

open Search Run

variable {σ P : Type} {box : Bounds Float} {J : σ → Prop} {s : Run Float P × Session σ}

theorem adopt_preserves (h : Safe box J s) (X F : Value) :
    Preserves box J (adopt X F : Search σ Float P Unit) s := by
  simp only [adopt, Preserves, ends_bind, ends_current, ends_ofExcept]
  refine ⟨fun p read => ?_, fun _ _ => h⟩
  obtain ⟨X', F', _, _, passed⟩ := Population.checked_of_ofValues read
  obtain ⟨_, _, sizeX, sizeF⟩ := Population.of_check passed
  have inside := Population.inside_of_check passed (Population.even_of_ofValues read)
  rw [h.bounds] at inside
  exact seed_preserves h sizeX (sizeF.trans sizeX.symm) inside

/-- Sampled rows are moved into the box, all of them. -/
theorem populate_boxed (initializer : Initializer σ) (stored : s.1.Stored)
    (size : s.1.X.size = s.1.popSize)
    (numeric : Ensures (sample initializer) s fun pool _ => pool.Numeric) :
    Ensures (populate initializer) s fun _ s' => s'.1.Boxed ∧ s'.1.bounds = s.1.bounds := by
  simp only [populate, ensures_bind, ensures_current, ensures_ite, ensures_throw]
  refine ((sample_redrawn initializer).and numeric).mono ?_
  rintro pool s₁ ⟨⟨streams, same⟩, number⟩
  refine ⟨fun _ => trivial, fun _ => ?_⟩
  simp only [setPositions, ensures_bind, ensures_current, ensures_ofExcept, ensures_update]
  intro rows cut
  have count : rows.size = s₁.1.popSize := Tensor.size_rowsExactly cut
  have inside := Bounds.inside_clipRows (b := s.1.bounds) (Tensor.numeric_rowsExactly number cut)
  rw [same] at count ⊢
  have whole : (Run.moveAll { s.1 with streams } rows).X = s.1.bounds.clipRows rows :=
    writeAt_range size ((Bounds.size_clipRows _ _).trans count)
  refine ⟨⟨⟨stored.waiting, stored.held, stored.bests⟩, ?_, ?_⟩, rfl⟩
  · rw [whole, Bounds.size_clipRows]
    exact count
  · rw [whole]
    exact inside

end Initial

end BoxSearch
