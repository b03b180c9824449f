import BoxSearch.Proofs.Run.Formed

/-!
A run whose notes are in order.

A run is tidy if it has one position for each individual, and one velocity for each as soon as
velocities are noted. It is so from the start, and stays so whatever is noted and drawn and whatever
calls are made.
-/

namespace BoxSearch

namespace Run

section Notes

variable {α P : Type} [Scalar α]

/-- There is a position for every individual, and if velocities are noted, there is one for every
individual and no other note under their name. -/
structure Tidy (run : Run α P) : Prop where
  positions : run.X.size = run.popSize
  velocities : ∀ velocity, run.swarm.velocity = some velocity →
    velocity.size = run.popSize ∧ ∀ remark ∈ run.remarks, remark.1 ≠ Swarm.Part.velocity.name

theorem tidy_start (bounds : Bounds α) (popSize : Nat) (nObj : Option Int) (frontLimit : Value)
    (seed : Nat) : (start bounds popSize nObj frontLimit seed : Run α P).Tidy :=
  ⟨Array.size_replicate, nofun⟩

variable {run run' : Run α P}

/-- A run with the same positions and velocities, and no new note under the name of velocities. -/
theorem Tidy.of_same (h : run.Tidy) (X : run'.X = run.X)
    (popSize : run'.popSize = run.popSize) (velocity : run'.swarm.velocity = run.swarm.velocity)
    (quiet : ∀ remark ∈ run'.remarks,
      remark ∈ run.remarks ∨ remark.1 ≠ Swarm.Part.velocity.name) : run'.Tidy := by
  refine ⟨by rw [X, popSize, h.positions], fun V noted => ?_⟩
  rw [velocity] at noted
  obtain ⟨size, alone⟩ := h.velocities V noted
  exact ⟨by rw [size, popSize], fun remark there => (quiet remark there).elim (alone remark) id⟩

theorem mem_forget {name : String} {remark : String × Note α}
    (h : remark ∈ (run.forget name).remarks) : remark ∈ run.remarks ∧ remark.1 ≠ name := by
  simpa [forget] using h

/-- Of all parts of its memory, only the velocities of a swarm are counted. -/
theorem Tidy.remember (h : run.Tidy) (part : Swarm.Part) {rows : Rows α}
    (size : part = .velocity → rows.size = run.popSize) : (run.remember part rows).Tidy := by
  have quiet : ∀ remark ∈ (run.remember part rows).remarks,
      remark ∈ run.remarks ∧ remark.1 ≠ part.name := fun _ there => mem_forget there
  cases part with
  | velocity =>
    refine ⟨h.positions, fun V noted => ?_⟩
    cases noted
    exact ⟨size rfl, fun remark there => (quiet remark there).2⟩
  | bestX => exact h.of_same rfl rfl rfl fun remark there => .inl (quiet remark there).1
  | bestF => exact h.of_same rfl rfl rfl fun remark there => .inl (quiet remark there).1

/-- New velocities take the place of the old ones, and that is all. -/
theorem Tidy.remember_velocity (h : run.Tidy) {velocity : Rows α}
    (noted : run.swarm.velocity = some velocity) (V : Rows α) :
    run.remember .velocity V = { run with swarm.velocity := some V } := by
  have quiet : run.remarks.filter (·.1 != Swarm.Part.velocity.name) = run.remarks :=
    List.filter_eq_self.mpr fun remark there => by
      simpa using (h.velocities velocity noted).2 remark there
  rw [Run.remember, forget]
  simp only [quiet]
  rfl

omit [Scalar α] in
theorem size_rows? {note : Note α} {count : Nat} {rows : Rows α}
    (h : note.rows? count = some rows) : rows.size = count := by
  cases note with
  | other v => cases h
  | array t =>
    obtain ⟨⟨_, rows'⟩, -, found⟩ := Option.bind_eq_some_iff.mp h
    dsimp only at found
    split at found
    next many =>
      cases found
      exact eq_of_beq many
    next => cases found

/-- Whatever the user notes. -/
theorem Tidy.note (h : run.Tidy) (name : String) (note : Note α) :
    (run.note name note).Tidy := by
  have quiet {found : Option Swarm.Part} (named : Swarm.Part.named? name = found)
      (different : found ≠ some .velocity) : ∀ remark ∈ (run.forget name).remarks ++ [(name, note)],
      remark ∈ run.remarks ∨ remark.1 ≠ Swarm.Part.velocity.name := by
    intro remark there
    rcases List.mem_append.mp there with before | new
    · exact .inl (mem_forget before).1
    · obtain rfl := List.mem_singleton.mp new
      right
      rintro rfl
      exact different (named.symm.trans (by decide))
  unfold Run.note
  split
  next part rows _ counted => exact h.remember part fun _ => size_rows? counted
  next part named _ =>
    cases part with
    | velocity => exact ⟨h.positions, nofun⟩
    | bestX => exact h.of_same rfl rfl rfl (quiet named nofun)
    | bestF => exact h.of_same rfl rfl rfl (quiet named nofun)
  next _ named => exact h.of_same rfl rfl rfl (quiet named nofun)

theorem Tidy.moveAll (h : run.Tidy) (X : Rows α) : (run.moveAll X).Tidy :=
  ⟨(size_writeAt _ _ _).trans h.positions, h.velocities⟩

theorem Tidy.redrawn (h : run.Tidy) (drawn : Search.Redrawn run run') : run'.Tidy := by
  obtain ⟨streams, rfl⟩ := drawn
  exact ⟨h.positions, h.velocities⟩

theorem Tidy.assessed (h : run.Tidy) (assessed : Search.Assesses run run') : run'.Tidy := by
  obtain ⟨_, _, _, _, _, rfl⟩ := assessed
  exact ⟨h.positions, h.velocities⟩

end Notes

end Run

namespace Search

open Run

variable {σ α P β : Type} [Scalar α] {s : Run α P × Session σ} {evaluator : Evaluator σ α P}

/-- Whichever way the computation ends, the run that it leaves is tidy. -/
abbrev KeepsTidy (m : Search σ α P β) (s : Run α P × Session σ) : Prop :=
  Ends m s (fun s' => s'.1.Tidy) fun _ s' => s'.1.Tidy

theorem evaluate_tidy (h : s.1.Tidy) (X : Rows α) : KeepsTidy (evaluate evaluator X) s :=
  (evaluate_assesses X).mono (fun _ assessed => h.assessed assessed)
    fun _ _ assessed => h.assessed assessed

theorem evaluateAll_tidy (h : s.1.Tidy) : KeepsTidy (evaluateAll evaluator) s := by
  simp only [evaluateAll, KeepsTidy, ends_bind, ends_ite, ends_current, ends_pure, ends_update]
  refine ⟨fun _ => h, fun _ => (evaluate_tidy h _).imp fun F s₁ tidy => ?_⟩
  exact ⟨tidy.positions, tidy.velocities⟩

theorem updateBest_tidy (h : s.1.Tidy) : KeepsTidy (updateBest : Search σ α P Unit) s := by
  simp only [updateBest, KeepsTidy, ends_bind, ends_current]
  cases s.1.tracker with
  | none => exact ⟨h.positions, h.velocities⟩
  | some t =>
    simp only [ends_bind, ends_ite, ends_throw, ends_update]
    refine ⟨fun _ => h, fun _ => ?_⟩
    refine (ends_forM (fun s' => s'.1 = s.1) rfl fun _ _ s₁ same => ?_).imp fun _ s₁ same => ?_
    · rwa [ends_log]
    · rw [same]
      exact ⟨h.positions, h.velocities⟩

theorem setPositions_tidy (h : s.1.Tidy) (X : Tensor α) (indices : Option (List Int)) :
    KeepsTidy (setPositions X indices) s := by
  have moved (places : List Nat) (rows : Rows α) : (s.1.move places rows).Tidy :=
    ⟨(size_writeAt _ _ _).trans h.positions, h.velocities⟩
  simp only [setPositions, KeepsTidy, ends_bind, ends_current]
  cases indices with
  | none =>
    simp only [ends_bind, ends_ofExcept, ends_update]
    exact ⟨fun rows _ => moved _ rows, fun _ _ => h⟩
  | some indices =>
    simp only [ends_bind, ends_ofExcept, ends_update]
    exact ⟨fun rows _ => ⟨fun places _ => moved places rows, fun _ _ => h⟩, fun _ _ => h⟩

theorem replace_tidy (h : s.1.Tidy) (indices : List Int) (X F : Tensor α) :
    KeepsTidy (replace indices X F) s := by
  have put (places : List Nat) (rows : Rows α) : (s.1.put places rows).Tidy :=
    ⟨(size_writeAt _ _ _).trans h.positions, h.velocities⟩
  simp only [replace, KeepsTidy, ends_ite, ends_bind, ends_current, ends_pure]
  refine ⟨fun _ => h, fun _ => ?_⟩
  cases s.1.F with
  | none => exact h
  | some F' =>
    simp only [ends_bind, ends_ofExcept, ends_update, ends_ite, ends_throw]
    refine ⟨fun rows _ => ⟨fun fitness _ => ⟨fun places _ => ?_, fun _ _ => h⟩, fun _ _ => h⟩,
      fun _ _ => h⟩
    have tidy := put places rows
    exact ⟨fun _ => ⟨tidy.positions, tidy.velocities⟩,
      fun _ => ⟨fun _ => ⟨tidy.positions, tidy.velocities⟩, fun _ => tidy⟩⟩

theorem seed_tidy (h : s.1.Tidy) {X F : Rows α} {width : Nat} (size : X.size = s.1.popSize) :
    KeepsTidy (seed X F width : Search σ α P Unit) s := by
  simp only [seed, KeepsTidy, ends_bind, ends_current, ends_update, ends_log]
  refine (registerWidth_assesses width).mono (fun _ assessed => h.assessed assessed) ?_
  intro _ s₁ assessed
  apply (ranked_ends F).imp
  rintro F' s₂ ⟨-, changed⟩
  obtain ⟨popSize, tidy⟩ : s₁.1.popSize = s.1.popSize ∧ s₁.1.Tidy :=
    ⟨assessed.population.2.1, h.assessed assessed⟩
  rw [changed]
  exact ⟨size.trans popSize.symm, tidy.velocities⟩

end Search

namespace Run

open Search

variable {σ P : Type} {evaluator : Evaluator σ Float P} {s : Run Float P × Session σ}

theorem call_tidy (h : s.1.Tidy) (call : Call σ) : KeepsTidy (call.perform evaluator) s := by
  cases call with
  | populate initializer =>
    simp only [Call.perform, Initial.populate, KeepsTidy, ends_bind, ends_current, ends_ite,
      ends_throw]
    refine (Initial.redraws_sample initializer).mono (fun _ drawn => h.redrawn drawn) ?_
    intro pool s₁ drawn
    have tidy := h.redrawn drawn
    exact ⟨fun _ => tidy, fun _ => setPositions_tidy tidy pool none⟩
  | evaluate X =>
    simp only [Call.perform, evaluateArray, KeepsTidy, bind_assoc, ends_bind, ends_current,
      ends_ofExcept, ends_pure]
    exact ⟨fun rows _ => evaluate_tidy h rows, fun _ _ => h⟩
  | evaluateAll =>
    simp only [Call.perform, KeepsTidy, ends_bind, ends_pure]
    exact evaluateAll_tidy h
  | seed X F =>
    simp only [Call.perform, Initial.adopt, KeepsTidy, ends_bind, ends_current, ends_ofExcept]
    refine ⟨fun p read => ?_, fun _ _ => h⟩
    obtain ⟨_, _, _, _, passed⟩ := Population.checked_of_ofValues read
    obtain ⟨_, _, size, -⟩ := Population.of_check passed
    exact seed_tidy h size
  | setPositions X indices => exact setPositions_tidy h X indices
  | replace indices X F => exact replace_tidy h indices X F
  | completeGeneration => exact ⟨h.positions, h.velocities⟩
  | updateBest => exact updateBest_tidy h

/-- The states that calls and notes lead to, one after another and in any order. In between, numbers
may be drawn, and the session may change. -/
inductive Handled (evaluator : Evaluator σ Float P) : Run Float P × Session σ → Prop
  | start (bounds : Bounds Float) (popSize : Nat) (nObj : Option Int) (frontLimit : Value)
      (seed : Nat) (session : Session σ) :
      Handled evaluator (.start bounds popSize nObj frontLimit seed, session)
  | called {s : Run Float P × Session σ} (handled : Handled evaluator s) (call : Call σ) :
      Handled evaluator ((call.perform evaluator).run s).2
  | noted {run : Run Float P} {session : Session σ} (handled : Handled evaluator (run, session))
      (name : String) (note : Note Float) : Handled evaluator (run.note name note, session)
  | drawn {run : Run Float P} {session : Session σ} (handled : Handled evaluator (run, session))
      (streams : Streams) (session' : Session σ) :
      Handled evaluator ({ run with streams }, session')

/-- By induction on how the state was reached. -/
theorem handled_tidy (handled : Handled evaluator s) : s.1.Tidy := by
  induction handled with
  | start bounds popSize nObj frontLimit seed session =>
    exact tidy_start bounds popSize nObj frontLimit seed
  | called _ call tidy => exact (call_tidy tidy call).after
  | noted _ name note tidy => exact tidy.note name note
  | drawn _ streams _ tidy => exact ⟨tidy.positions, tidy.velocities⟩

end Run

end BoxSearch
