import BoxSearch.Proofs.Run.Together
import BoxSearch.Proofs.Strategy.Progress

/-!
What is drawn does not depend on what is optimised.

Two runs of one size keep their streams in step, whatever their boxes and their objectives are: how
many numbers an operator takes is decided by the settings, by the dimension and by the numbers
themselves. With several objectives this is so for the genetic strategy only, since the others look
for good points on the front, and the size of the front is a matter of fitness.
-/

namespace BoxSearch

open Search Draw

variable {σ τ P : Type} {n d w w' : Nat}

/-- Two runs of one size that are underway, with all their streams in the same states. -/
structure Run.Abreast (n d w w' : Nat) (run run' : Run Float P) : Prop where
  first : run.Underway n d w
  second : run'.Underway n d w'
  streams : run.SameStreams run'

/-- Rows in the same place of two populations of one shape have the same length. -/
theorem Rows.Shaped.size_row_eq {α : Type} {X X' : Rows α} (h : X.Shaped n d)
    (h' : X'.Shaped n d) (i : Nat) : (X.row i).size = (X'.row i).size := by
  by_cases inside : i < n
  · rw [h.row inside, h'.row inside]
  · have beyond : ¬i < X.size := by rwa [h.size]
    have beyond' : ¬i < X'.size := by rwa [h'.size]
    simp [Rows.row, beyond, beyond']

section Together

variable {β γ : Type} {s : Run Float P × Session σ} {s' : Run Float P × Session τ}
  {m : Search σ Float P β} {m' : Search τ Float P γ}

namespace Run.Abreast

/-- Whatever else two runs do by themselves, they stay abreast if it keeps them underway and draws
nothing. -/
theorem quiet (h : s.1.Abreast n d w w' s'.1)
    (first : Ensures m s fun _ t => t.1.streams = s.1.streams ∧ t.1.Underway n d w)
    (second : Ensures m' s' fun _ t' => t'.1.streams = s'.1.streams ∧ t'.1.Underway n d w') :
    Together m m' s s' fun _ _ t t' => t.1.Abreast n d w w' t'.1 := by
  refine (together_of_ensures first second).mono ?_
  rintro b c t t' ⟨⟨streams, underway⟩, streams', underway'⟩
  refine ⟨underway, underway', fun id => ?_⟩
  rw [streams, streams', h.streams id]

theorem evaluateAccept {e : Evaluator σ Float P} {e' : Evaluator τ Float P}
    (total : e.Total d w) (total' : e'.Total d w') (h : s.1.Abreast n d w w' s'.1)
    (X X' : Rows Float) :
    Together (Search.evaluateAccept e X) (Search.evaluateAccept e' X') s s'
      fun _ _ t t' => t.1.Abreast n d w w' t'.1 :=
  h.quiet ((evaluateAccept_streams e X).and (evaluateAccept_proceeds total h.first X).ensures)
    ((evaluateAccept_streams e' X').and (evaluateAccept_proceeds total' h.second X').ensures)

/-- Draws in step keep two runs abreast. -/
theorem perIndividual (h : s.1.Abreast n d w w' s'.1) {R : β → γ → Prop}
    {each : Nat → Draw β} {each' : Nat → Draw γ} (inStep : ∀ i < n, InStep R (each i) (each' i)) :
    Together (Search.perIndividual each) (Search.perIndividual each') s s'
      fun _ _ t t' => t.1.Abreast n d w w' t'.1 := by
  have size : s'.1.popSize = s.1.popSize := by rw [h.first.popSize, h.second.popSize]
  have inStep : ∀ i < s.1.popSize, InStep R (each i) (each' i) := by rwa [h.first.popSize]
  refine (perIndividual_together size h.streams inStep).mono ?_
  rintro xs ys t t' ⟨-, streams, ⟨redrawn, -⟩, redrawn', -⟩
  exact ⟨h.first.redrawn redrawn, h.second.redrawn redrawn', streams⟩

end Run.Abreast

end Together

namespace Variation

theorem inStep_uniformRow {i j : Nat} (same : i = j) :
    InStep (fun _ _ => True) (uniformRow i : Draw (Row Float)) (uniformRow j : Draw (Row Float)) := by
  subst same
  exact (inStep_self _).mono fun _ _ _ => trivial

theorem inStep_normalRow {i j : Nat} (same : i = j) :
    InStep (fun _ _ => True) (normalRow i : Draw (Row Float)) (normalRow j : Draw (Row Float)) := by
  subst same
  exact (inStep_self _).mono fun _ _ _ => trivial

end Variation

namespace Genetic

open Variation

/-- Two children each, of the same sizes. -/
def SameSizes (c c' : Row Float × Row Float) : Prop :=
  c.1.size = c'.1.size ∧ c.2.size = c'.2.size

variable {bounds bounds' : Bounds Float} {p p' q q' : Row Float}

theorem inStep_cross (settings : Settings) (size : p.size = p'.size) :
    InStep SameSizes (cross settings bounds p q) (cross settings bounds' p' q') := by
  have row := inStep_uniformRow size
  rw [cross, cross]
  cases settings.crossover with
  | blend =>
    refine inStep_bind row fun _ _ _ => inStep_bind row fun _ _ _ => inStep_pure ?_
    simp [SameSizes, blend, size]
  | simulatedBinary =>
    refine inStep_bind row fun _ _ _ => inStep_bind row fun _ _ _ => inStep_bind row fun _ _ _ =>
      inStep_pure ?_
    simp [SameSizes, simulatedBinary, size]

theorem inStep_mutate (settings : Settings) {x x' : Row Float} (size : x.size = x'.size) :
    InStep (fun y y' => y.size = y'.size) (mutate settings bounds x)
      (mutate settings bounds' x') := by
  have row := inStep_uniformRow size
  rw [mutate, mutate]
  cases settings.mutation with
  | gaussian =>
    refine inStep_bind row fun _ _ _ => inStep_bind (inStep_normalRow size) fun _ _ _ =>
      inStep_pure ?_
    simp [gaussian, size]
  | polynomial =>
    refine inStep_bind row fun _ _ _ => inStep_bind row fun _ _ _ => inStep_pure ?_
    simp [polynomial, size]

/-- Whether a pair crosses is a matter of the number drawn, not of the pair. -/
theorem inStep_firstDraws (settings : Settings) (sizeP : p.size = p'.size)
    (sizeQ : q.size = q'.size) :
    InStep SameSizes (firstDraws settings bounds p q) (firstDraws settings bounds' p' q') := by
  have rest (c c' : Row Float × Row Float) (sizes : SameSizes c c') :
      InStep SameSizes (do return (← mutate settings bounds c.1, c.2))
        (do return (← mutate settings bounds' c'.1, c'.2)) :=
    inStep_bind (inStep_mutate settings sizes.1) fun _ _ size => inStep_pure ⟨size, sizes.2⟩
  refine inStep_bind (inStep_self (Draw.chance settings.cross)) ?_
  rintro crosses _ rfl
  cases crosses with
  | true => exact inStep_bind (inStep_cross settings sizeP) rest
  | false => exact rest (p, q) (p', q') ⟨sizeP, sizeQ⟩

variable {s : Run Float P × Session σ} {s' : Run Float P × Session τ}
  {e : Evaluator σ Float P} {e' : Evaluator τ Float P}

theorem breed_together (settings : Settings) (a b : Nat) (h : s.1.Abreast n d w w' s'.1) :
    Together (breed settings a b) (breed settings a b) s s'
      fun _ _ t t' => t.1.Abreast n d w w' t'.1 := by
  have sizes := h.first.positions.size_row_eq h.second.positions
  rw [breed, breed]
  apply together_bind
  apply together_current
  apply together_bind
  refine (draw_together _ h.streams (inStep_firstDraws settings (sizes a) (sizes b))).mono ?_
  rintro children children' t t' ⟨size, streams, ⟨redrawn, -⟩, redrawn', -⟩
  apply together_bind
  refine (draw_together _ streams (inStep_mutate settings size.2)).mono ?_
  rintro _ _ u u' ⟨-, streams, ⟨redrawn₂, -⟩, redrawn₂', -⟩
  apply together_pure
  exact ⟨h.first.redrawn (redrawn.trans redrawn₂), h.second.redrawn (redrawn'.trans redrawn₂'),
    streams⟩

theorem newFamilies_together (settings : Settings) {start start' : Run Float P}
    (size : start.popSize = start'.popSize) (h : s.1.Abreast n d w w' s'.1) :
    Together (newFamilies settings start) (newFamilies settings start') s s'
      fun _ _ t t' => t.1.Abreast n d w w' t'.1 := by
  rw [newFamilies, newFamilies, size]
  apply together_bind
  refine (draw_together .driver h.streams (inStep_self _)).mono ?_
  rintro order _ t t' ⟨rfl, streams, ⟨redrawn, -⟩, redrawn', -⟩
  apply together_bind
  have kept : t.1.Abreast n d w w' t'.1 :=
    ⟨h.first.redrawn redrawn, h.second.redrawn redrawn', streams⟩
  refine (together_mapM (fun _ _ => True) (fun t t' => t.1.Abreast n d w w' t'.1) kept ?_).mono ?_
  · intro pair _ u u' h
    exact (breed_together settings pair.1 pair.2 h).mono fun _ _ _ _ h => ⟨trivial, h⟩
  · rintro _ _ u u' ⟨-, h⟩
    exact together_pure h

theorem contest_streams (e : Evaluator σ Float P) (start : Run Float P)
    (families : List (Family Float)) :
    Ensures (contest e start families) s fun _ t => t.1.streams = s.1.streams := by
  simp only [contest, ensures_ite, ensures_bind, ensures_current, ensures_ofExcept, ensures_update]
  constructor
  · intro _
    exact (log_ensures _).mono fun _ t h => by rw [h.1]
  · intro _
    refine (evaluate_streams e _).mono fun FC t drawn _ _ => ?_
    obtain ⟨_, _, _, same⟩ := competeAll_repositions families
      (start.bounds.clipRows (children families)) FC t.1
    rw [same]
    exact drawn

/-- Pairs without new children sit the generation out only after all have drawn. -/
theorem step_together (total : e.Total d w) (total' : e'.Total d w') (settings : Settings)
    (h : s.1.Abreast n d w w' s'.1) :
    Together (step settings e) (step settings e') s s'
      fun _ _ t t' => t.1.Abreast n d w w' t'.1 := by
  rw [step_eq, step_eq]
  apply together_bind
  apply together_current
  apply together_bind
  have size : s.1.popSize = s'.1.popSize := by rw [h.first.popSize, h.second.popSize]
  refine (newFamilies_together settings size h).mono fun families families' t t' h => ?_
  exact h.quiet
    ((contest_streams e _ _).and (contest_proceeds total h.first s.1 families).ensures)
    ((contest_streams e' _ _).and (contest_proceeds total' h.second s'.1 families').ensures)

end Genetic

namespace Differential

variable {run run' : Run Float P}

theorem inStep_trial (settings : Settings) (size : run.popSize = run'.popSize)
    (dim : run.dim = run'.dim) (plain : run.front? = none) (plain' : run'.front? = none) (i : Nat) :
    InStep (fun _ _ => True) (trial settings run i) (trial settings run' i) := by
  rw [trial, trial, size, dim]
  apply inStep_bind (inStep_self _)
  rintro picks _ rfl
  have takes (best best' : Row Float) : InStep (fun _ _ => True)
      (do
        let takes ← drawTakes settings run'.dim
        return crossed takes (run.X.row i)
          (mutate settings (run.X.row i) best (picks.map run.X.row)) : Draw (Row Float))
      (do
        let takes ← drawTakes settings run'.dim
        return crossed takes (run'.X.row i)
          (mutate settings (run'.X.row i) best' (picks.map run'.X.row)) : Draw (Row Float)) :=
    inStep_bind (inStep_self _) fun _ _ _ => inStep_pure trivial
  split
  · rw [Run.sampleLeader, Run.sampleLeader, plain, plain']
    refine inStep_bind (R := fun _ _ => True) (inStep_ofExcept fun _ _ _ _ => trivial) ?_
    exact fun best best' _ => takes best best'
  · exact takes #[] #[]

variable {s : Run Float P × Session σ} {s' : Run Float P × Session τ}
  {e : Evaluator σ Float P} {e' : Evaluator τ Float P}

theorem step_together (total : e.Total d 1) (total' : e'.Total d 1) (settings : Settings)
    (h : s.1.Abreast n d 1 1 s'.1) :
    Together (step settings e) (step settings e') s s'
      fun _ _ t t' => t.1.Abreast n d 1 1 t'.1 := by
  rw [step, step]
  apply together_bind
  apply together_current
  apply together_bind
  have size : s.1.popSize = s'.1.popSize := by rw [h.first.popSize, h.second.popSize]
  have dim : s.1.dim = s'.1.dim := by rw [h.first.dim, h.second.dim]
  refine (h.perIndividual fun i _ => inStep_trial settings size dim h.first.front?_eq_none
    h.second.front?_eq_none i).mono ?_
  intro trials trials' t t' h
  exact h.evaluateAccept total total' _ _

end Differential

namespace Teaching

variable {run run' : Run Float P}

theorem inStep_teach (dim : run.dim = run'.dim) (plain : run.front? = none)
    (plain' : run'.front? = none) (mean mean' : Row Float) (i : Nat) :
    InStep (fun _ _ => True) (teach run mean i) (teach run' mean' i) := by
  rw [teach, teach, Run.sampleLeader, Run.sampleLeader, plain, plain', dim]
  refine inStep_bind (R := fun _ _ => True) (inStep_ofExcept fun _ _ _ _ => trivial) ?_
  exact fun _ _ _ => inStep_bind (inStep_self _) fun _ _ _ => inStep_bind (inStep_self _)
    fun _ _ _ => inStep_pure trivial

theorem inStep_learn (size : run.popSize = run'.popSize) (dim : run.dim = run'.dim)
    (F F' : Rows Float) (i : Nat) :
    InStep (fun _ _ => True) (learn run F i) (learn run' F' i) := by
  rw [learn, learn, size, dim]
  exact inStep_bind (inStep_self _) fun _ _ _ => inStep_bind (inStep_self _) fun _ _ _ =>
    inStep_pure trivial

variable {s : Run Float P × Session σ} {s' : Run Float P × Session τ}
  {e : Evaluator σ Float P} {e' : Evaluator τ Float P}

theorem step_together (total : e.Total d 1) (total' : e'.Total d 1)
    (h : s.1.Abreast n d 1 1 s'.1) :
    Together (step e) (step e') s s' fun _ _ t t' => t.1.Abreast n d 1 1 t'.1 := by
  rw [step, step, teacherPhase, teacherPhase, learnerPhase, learnerPhase]
  apply together_bind
  apply together_bind
  apply together_current
  apply together_bind
  have dim : s.1.dim = s'.1.dim := by rw [h.first.dim, h.second.dim]
  refine (h.perIndividual fun i _ => inStep_teach dim h.first.front?_eq_none
    h.second.front?_eq_none _ _ i).mono ?_
  intro _ _ t t' h
  refine (h.evaluateAccept total total' _ _).mono ?_
  intro _ _ t t' h
  apply together_bind
  apply together_current
  apply together_bind
  apply together_ofExcept
  intro F F' _ _
  apply together_bind
  have size : t.1.popSize = t'.1.popSize := by rw [h.first.popSize, h.second.popSize]
  have dim : t.1.dim = t'.1.dim := by rw [h.first.dim, h.second.dim]
  refine (h.perIndividual fun i _ => inStep_learn size dim F F' i).mono ?_
  intro _ _ t t' h
  exact h.evaluateAccept total total' _ _

end Teaching

namespace Swarm

variable {run run' : Run Float P}

theorem inStep_accelerate (settings : Settings) (dim : run.dim = run'.dim)
    (plain : run.front? = none) (plain' : run'.front? = none)
    (velocity velocity' bestX bestX' : Rows Float) (i : Nat) :
    InStep (fun _ _ => True) (accelerate settings run velocity bestX i)
      (accelerate settings run' velocity' bestX' i) := by
  rw [accelerate, accelerate, leader, leader, plain, plain', dim]
  refine inStep_bind (R := fun _ _ => True) (inStep_ofExcept fun _ _ _ _ => trivial) ?_
  exact fun _ _ _ => inStep_bind (inStep_self _) fun _ _ _ => inStep_bind (inStep_self _)
    fun _ _ _ => inStep_pure trivial

variable {s : Run Float P × Session σ} {s' : Run Float P × Session τ}

theorem prepare_streams :
    Ensures (prepare : Search σ Float P Unit) s fun _ t => t.1.streams = s.1.streams := by
  simp only [prepare, ensures_bind, ensures_update, ensures_current, ensures_ofExcept, remember_eq]
  exact fun _ _ => trivial

theorem updateBests_streams :
    Ensures (updateBests : Search σ Float P Unit) s fun _ t => t.1.streams = s.1.streams := by
  simp only [updateBests, ensures_bind, ensures_update, ensures_current, ensures_ofExcept,
    ensures_ite, ensures_throw, remember_eq]
  exact fun _ _ _ _ _ _ => ⟨fun _ => trivial, fun _ => trivial⟩

theorem streams_measureFront (run : Run Float P) : run.measureFront.streams = run.streams := by
  obtain ⟨tracker, measured⟩ := measureFront_eq run
  rw [measured]

theorem accelerateAll_together (large : 0 < n) (settings : Settings)
    (h : s.1.Abreast n d 1 1 s'.1) (complete : s.1.swarm.Complete n d 1)
    (complete' : s'.1.swarm.Complete n d 1) :
    Together (accelerateAll settings) (accelerateAll settings) s s'
      fun _ _ t t' => t.1.Abreast n d 1 1 t'.1 := by
  rw [accelerateAll]
  apply together_bind
  refine (h.quiet (updateBests_streams.and ((updateBests_proceeds large h.first complete).imp
    fun _ _ h => h.1).ensures) (updateBests_streams.and
      ((updateBests_proceeds large h.second complete').imp fun _ _ h => h.1).ensures)).mono ?_
  intro _ _ t t' h
  apply together_bind
  apply together_update
  have measured : t.1.measureFront.Abreast n d 1 1 t'.1.measureFront := by
    refine ⟨h.first.measureFront, h.second.measureFront, fun id => ?_⟩
    rw [streams_measureFront, streams_measureFront, h.streams id]
  apply together_bind
  apply together_current
  apply together_bind
  apply together_ofExcept
  intro velocity velocity' _ _
  apply together_bind
  apply together_ofExcept
  intro bestX bestX' _ _
  apply together_guard
  have dim := measured.first.dim.trans measured.second.dim.symm
  exact Run.Abreast.perIndividual measured fun i _ => inStep_accelerate settings dim
    measured.first.front?_eq_none measured.second.front?_eq_none _ _ _ _ i

/-- Two swarms that remember everything stay in step, whoever flies where. -/
theorem fly_together (large : 0 < n) (settings : Settings) (h : s.1.Abreast n d 1 1 s'.1)
    (complete : s.1.swarm.Complete n d 1) (complete' : s'.1.swarm.Complete n d 1) :
    Together (fly settings) (fly settings) s s' fun _ _ t t' => t.1.Abreast n d 1 1 t'.1 := by
  have streams : Together (fly settings) (fly settings) s s'
      fun _ _ t t' => t.1.SameStreams t'.1 := by
    rw [fly_eq, fly_eq]
    apply together_bind
    refine (accelerateAll_together large settings h complete complete').mono ?_
    intro _ _ t t' h
    exact together_update h.streams
  refine (streams.and_ensures (fly_proceeds large h.first complete settings).ensures
    (fly_proceeds large h.second complete' settings).ensures).mono ?_
  rintro _ _ t t' ⟨streams, first, second⟩
  exact ⟨first, second, streams⟩

theorem step_together (large : 0 < n) (settings : Settings) (h : s.1.Abreast n d 1 1 s'.1) :
    Together (step settings) (step settings) s s' fun _ _ t t' => t.1.Abreast n d 1 1 t'.1 := by
  -- the second run may prepare itself whether the first one did or not
  have second {t : Run Float P × Session σ} (streams : t.1.streams = s.1.streams)
      (underway : t.1.Underway n d 1) (complete : t.1.swarm.Complete n d 1) :
      Together (fly settings)
        (if !s'.1.remembers .velocity then prepare >>= fun _ => fly settings else fly settings)
        t s' fun _ _ t t' => t.1.Abreast n d 1 1 t'.1 := by
    split
    case isTrue =>
      apply together_right
      refine (prepare_streams.and (prepare_proceeds h.second).ensures).mono ?_
      rintro _ t' ⟨streams', underway', complete'⟩
      refine fly_together large settings ⟨underway, underway', fun id => ?_⟩ complete complete'
      rw [streams, streams', h.streams id]
    case isFalse known =>
      refine fly_together large settings ⟨underway, h.second, fun id => ?_⟩ complete
        (complete_of_remembers h.second known)
      rw [streams, h.streams id]
  rw [step_eq, step_eq]
  apply together_bind
  apply together_current
  split
  case isTrue =>
    apply together_left
    refine (prepare_streams.and (prepare_proceeds h.first).ensures).mono ?_
    rintro _ t ⟨streams, underway, complete⟩
    exact second streams underway complete
  case isFalse known => exact second rfl h.first (complete_of_remembers h.first known)

end Swarm

namespace Strategy

/-- Which settings make the pace depend on the settings alone: all of the genetic strategy, and with
a single objective those of the others apart from the fireflies. -/
inductive Paced : Settings → Nat → Nat → Prop
  | genetic (settings : Genetic.Settings) (w w' : Nat) : Paced (.genetic settings) w w'
  | differential (settings : Differential.Settings) : Paced (.differential settings) 1 1
  | swarm (settings : Swarm.Settings) : Paced (.swarm settings) 1 1
  | teaching (settings : Teaching.Settings) : Paced (.teaching settings) 1 1

variable {s : Run Float P × Session σ} {s' : Run Float P × Session τ}
  {e : Evaluator σ Float P} {e' : Evaluator τ Float P} {settings : Settings}

theorem prepare_streams (settings : Settings) :
    Ensures (prepare settings : Search σ Float P Unit) s fun _ t => t.1.streams = s.1.streams := by
  cases settings with
  | swarm settings => exact Swarm.prepare_streams
  | genetic | differential | firefly | teaching => exact (ensures_pure _).mpr rfl

theorem prepare_together (settings : Settings) (h : s.1.Abreast n d w w' s'.1) :
    Together (prepare settings) (prepare settings) s s' fun _ _ t t' => t.1.Abreast n d w w' t'.1 :=
  h.quiet ((prepare_streams settings).and (prepare_proceeds h.first settings).ensures)
    ((prepare_streams settings).and (prepare_proceeds h.second settings).ensures)

theorem step_together (paced : Paced settings w w') (large : 0 < n) (total : e.Total d w)
    (total' : e'.Total d w') (h : s.1.Abreast n d w w' s'.1) :
    Together (step settings e) (step settings e') s s'
      fun _ _ t t' => t.1.Abreast n d w w' t'.1 := by
  cases paced with
  | genetic settings => exact Genetic.step_together total total' settings h
  | differential settings => exact Differential.step_together total total' settings h
  | swarm settings => exact Swarm.step_together large settings h
  | teaching settings => exact Teaching.step_together total total' h

theorem generation_together (paced : Paced settings w w') (large : 0 < n) (width : 1 ≤ w)
    (width' : 1 ≤ w') (total : e.Total d w) (total' : e'.Total d w')
    (h : s.1.Abreast n d w w' s'.1) :
    Together (generation settings e) (generation settings e') s s'
      fun _ _ t t' => t.1.Abreast n d w w' t'.1 := by
  have folded {ρ : Type} {t : Run Float P × Session ρ} :
      Ensures (updateBest : Search ρ Float P Unit) t fun _ u => u.1.streams = t.1.streams :=
    updateBest_ensures.mono fun _ u h => by rw [h.1]
  rw [generation, generation]
  apply together_bind
  refine (step_together paced large total total' h).mono fun _ _ t t' h => ?_
  apply together_bind
  refine (h.quiet ((evaluateAll_streams e).and (evaluateAll_proceeds total h.first).ensures)
    ((evaluateAll_streams e').and (evaluateAll_proceeds total' h.second).ensures)).mono ?_
  intro _ _ t t' h
  apply together_bind
  refine (h.quiet (folded.and (updateBest_proceeds width h.first).ensures)
    (folded.and (updateBest_proceeds width' h.second).ensures)).mono ?_
  intro _ _ t t' h
  exact together_update ⟨h.first.completeGeneration, h.second.completeGeneration, h.streams⟩

end Strategy

end BoxSearch
