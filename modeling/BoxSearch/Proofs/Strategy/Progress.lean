import BoxSearch.Proofs.Run.Underway
import BoxSearch.Proofs.Strategy.Boxed

/-!
No step of a strategy fails on its own.

What a step draws cannot fail: the pools are large enough, the ranges are not empty, and whoever
looks for a good point finds one. What it evaluates is answered, and what it writes has the shape of
what was there.
-/

namespace BoxSearch

open Search Draw

variable {σ P : Type} {n d w : Nat} {evaluator : Evaluator σ Float P} {s : Run Float P × Session σ}

section Leader

variable {run : Run Float P}

theorem Front.succeeds_sample {α : Type} [Scalar α] {front : Front α P}
    (filled : ¬front.members.isEmpty = true) : (front.sample : Draw _).Succeeds := by
  rw [sample, if_neg filled]
  exact yields_bind (succeeds_below _) fun _ _ => yields_pure trivial

theorem Front.succeeds_tournament {α : Type} [Scalar α] {front : Front α P}
    (filled : ¬front.members.isEmpty = true) : (front.tournament : Draw _).Succeeds := by
  rw [tournament, if_neg filled]
  exact yields_bind (succeeds_below _) fun _ _ => yields_bind (succeeds_below _) fun _ _ =>
    yields_pure trivial

theorem Run.succeeds_sampleLeader (h : run.hasBest = true) :
    (run.sampleLeader : Draw (Row Float)).Succeeds := by
  obtain ⟨⟨x, best⟩, _⟩ := exists_best h
  rw [sampleLeader]
  split
  case h_1 front _ =>
    by_cases empty : front.members.isEmpty = true
    · rw [if_pos empty]
      exact yields_ofExcept best trivial
    · rw [if_neg empty]
      exact yields_bind (Front.succeeds_sample empty) fun _ _ => yields_pure trivial
  case h_2 => exact yields_ofExcept best trivial

theorem Swarm.succeeds_leader (h : run.hasBest = true) : (leader run).Succeeds := by
  obtain ⟨⟨x, best⟩, _⟩ := Run.exists_best h
  rw [leader]
  split
  case h_1 front _ =>
    by_cases empty : front.members.isEmpty = true
    · rw [if_pos empty]
      exact yields_ofExcept best trivial
    · rw [if_neg empty]
      exact Front.succeeds_tournament empty
  case h_2 => exact yields_ofExcept best trivial

end Leader

namespace Genetic

theorem succeeds_cross (settings : Settings) (bounds : Bounds Float) (p q : Row Float) :
    (cross settings bounds p q).Succeeds := by
  have row := Variation.succeeds_uniformRow (α := Float) p.size
  rw [cross]
  cases settings.crossover with
  | blend =>
    exact yields_bind row fun _ _ => yields_bind row fun _ _ => yields_pure trivial
  | simulatedBinary =>
    exact yields_bind row fun _ _ => yields_bind row fun _ _ => yields_bind row fun _ _ =>
      yields_pure trivial

theorem succeeds_mutate (settings : Settings) (bounds : Bounds Float) (x : Row Float) :
    (mutate settings bounds x).Succeeds := by
  have row := Variation.succeeds_uniformRow (α := Float) x.size
  rw [mutate]
  cases settings.mutation with
  | gaussian =>
    exact yields_bind row fun _ _ => yields_bind (Variation.succeeds_normalRow _) fun _ _ =>
      yields_pure trivial
  | polynomial => exact yields_bind row fun _ _ => yields_bind row fun _ _ => yields_pure trivial

theorem succeeds_firstDraws (settings : Settings) (bounds : Bounds Float) (p q : Row Float) :
    (firstDraws settings bounds p q).Succeeds := by
  have rest (c d : Row Float) : (do
      let c ← mutate settings bounds c
      return (c, d) : Draw (Row Float × Row Float)).Succeeds :=
    yields_bind (succeeds_mutate _ _ _) fun _ _ => yields_pure trivial
  refine yields_bind (succeeds_chance _) fun crosses _ => ?_
  cases crosses with
  | true => exact yields_bind (succeeds_cross _ _ _ _) fun children _ => rest children.1 children.2
  | false => exact rest p q

theorem newFamilies_proceeds (h : s.1.Underway n d w) (settings : Settings) (start : Run Float P) :
    Proceeds n d w (newFamilies settings start) s := by
  simp only [newFamilies, Proceeds, ends_bind, ends_pure]
  apply (draw_yields _ (succeeds_shuffled _)).imp
  rintro order s₁ ⟨-, redrawn, -⟩
  refine ends_mapM _ (h.redrawn redrawn) fun pair _ s₂ h₂ => ?_
  simp only [breed, ends_bind, ends_current, ends_pure]
  apply (draw_yields _ (succeeds_firstDraws _ _ _ _)).imp
  rintro children s₃ ⟨-, redrawn₃, -⟩
  apply (draw_yields _ (succeeds_mutate _ _ _)).imp
  rintro d s₄ ⟨-, redrawn₄, -⟩
  exact h₂.redrawn (redrawn₃.trans redrawn₄)

theorem contest_proceeds (total : evaluator.Total d w) (h : s.1.Underway n d w)
    (start : Run Float P) (families : List (Family Float)) :
    Proceeds n d w (contest evaluator start families) s := by
  simp only [contest, Proceeds, ends_bind, ends_current, ends_ite, ends_log, ends_ofExcept,
    ends_update]
  refine ⟨fun _ => h, fun _ => ?_⟩
  apply (evaluate_proceeds total h _).imp
  rintro FC s₁ ⟨shaped, h₁⟩
  obtain ⟨F, known, _⟩ := h₁.fitness_eq
  rw [known]
  refine forall_of_ok ?_
  apply competeAll_induction h₁
  intro run' i k h' inside
  rw [← size_children start.bounds families] at inside
  exact h'.overwrite_one (shaped.row inside)

theorem step_proceeds (total : evaluator.Total d w) (h : s.1.Underway n d w)
    (settings : Settings) : Proceeds n d w (step settings evaluator) s := by
  rw [step_eq]
  simp only [Proceeds, ends_bind, ends_current]
  apply (newFamilies_proceeds h settings s.1).imp
  intro families s₁ h₁
  exact contest_proceeds total h₁ s.1 families

end Genetic

namespace Differential

theorem succeeds_runLength (rate : Float) (limit : Nat) : (runLength rate limit).Succeeds := by
  induction limit with
  | zero => exact yields_pure trivial
  | succ limit ih =>
    rw [runLength]
    refine yields_bind (succeeds_chance _) fun longer _ => ?_
    split
    · exact yields_bind ih fun _ _ => yields_pure trivial
    · exact yields_pure trivial

theorem succeeds_drawTakes (settings : Settings) {dim : Nat} (positive : 0 < dim)
    (short : dim ≤ 2 ^ 63) : (drawTakes settings dim).Succeeds := by
  have index : (Draw.index dim).Succeeds := succeeds_index (by omega) (by omega)
  rw [drawTakes]
  cases settings.crossover with
  | exponential =>
    exact yields_bind index fun _ _ => yields_bind (succeeds_runLength _ _) fun _ _ =>
      yields_pure trivial
  | binomial =>
    exact yields_bind index fun _ _ => yields_bind (succeeds_times succeeds_unit _) fun _ _ =>
      yields_pure trivial

/-- There are donors enough beside the individual itself. -/
theorem succeeds_trial {settings : Settings} {run : Run Float P} (best : run.hasBest = true)
    (donors : settings.mutant.donors + 1 ≤ run.popSize) (short : run.dim ≤ 2 ^ 63) {i : Nat}
    (inside : i < run.popSize) : (trial settings run i).Succeeds := by
  have takes := succeeds_drawTakes settings run.bounds.nonempty short
  refine yields_bind (succeeds_distinct inside donors) fun picks _ => ?_
  split
  · exact yields_bind (Run.succeeds_sampleLeader best) fun _ _ =>
      yields_bind takes fun _ _ => yields_pure trivial
  · exact yields_bind (p := fun _ => True) (yields_pure trivial) fun _ _ =>
      yields_bind takes fun _ _ => yields_pure trivial

theorem step_proceeds (total : evaluator.Total d w) (h : s.1.Underway n d w) {settings : Settings}
    (donors : settings.mutant.donors + 1 ≤ n) (short : d ≤ 2 ^ 63) :
    Proceeds n d w (step settings evaluator) s := by
  simp only [step, Proceeds, ends_bind, ends_current]
  have trials : ∀ i < s.1.popSize, (trial settings s.1 i).Succeeds := by
    intro i inside
    exact succeeds_trial h.hasBest (by rwa [h.popSize]) (by rwa [h.dim]) inside
  apply (perIndividual_yields trials).imp
  rintro drawn s₁ ⟨-, -, redrawn, -⟩
  exact evaluateAccept_proceeds total (h.redrawn redrawn) _

end Differential

namespace Firefly

theorem step_proceeds (total : evaluator.Total d w) (h : s.1.Underway n d w)
    (settings : Settings) : Proceeds n d w (step settings evaluator) s := by
  obtain ⟨F, known, _⟩ := h.fitness_eq
  simp only [step, Proceeds, ends_bind, ends_current, ends_ofExcept, ends_update, known]
  refine forall_of_ok ?_
  apply (perIndividual_yields fun i _ => succeeds_candidates settings s.1 F i).imp
  rintro drawn s₁ ⟨-, -, redrawn, -⟩
  apply (evaluate_proceeds total (h.redrawn redrawn) _).imp
  rintro FC s₂ ⟨shaped, h₂⟩
  have size : (s.1.bounds.clipRows (drawn.toList.flatMap id).toArray).size =
      (drawn.toList.map List.length).sum := by
    rw [Bounds.size_clipRows]
    simp
  apply settleAll_induction h₂
  intro run' i k h' inside
  rw [← size] at inside
  exact h'.overwrite_one (shaped.row inside)

end Firefly

namespace Teaching

theorem succeeds_teach {run : Run Float P} (best : run.hasBest = true) (mean : Row Float)
    (i : Nat) : (teach run mean i).Succeeds := by
  refine yields_bind (Run.succeeds_sampleLeader best) fun _ _ => ?_
  refine yields_bind (succeeds_index (by omega) (by omega)) fun _ _ => ?_
  exact yields_bind (succeeds_times succeeds_unit _) fun _ _ => yields_pure trivial

theorem succeeds_learn {run : Run Float P} (large : 2 ≤ run.popSize) (F : Rows Float) {i : Nat}
    (inside : i < run.popSize) : (learn run F i).Succeeds := by
  refine yields_bind (succeeds_distinct inside large) fun _ _ => ?_
  exact yields_bind (succeeds_times succeeds_unit _) fun _ _ => yields_pure trivial

theorem step_proceeds (total : evaluator.Total d w) (h : s.1.Underway n d w) (large : 2 ≤ n) :
    Proceeds n d w (step evaluator) s := by
  simp only [step, teacherPhase, learnerPhase, Proceeds, ends_bind, ends_current, ends_ofExcept]
  apply (perIndividual_yields fun i _ => succeeds_teach h.hasBest _ i).imp
  rintro taught s₁ ⟨-, -, redrawn₁, -⟩
  apply (evaluateAccept_proceeds total (h.redrawn redrawn₁) _).imp
  intro _ s₂ h₂
  obtain ⟨F, known, _⟩ := h₂.fitness_eq
  rw [known]
  refine forall_of_ok ?_
  have learners : ∀ i < s₂.1.popSize, (learn s₂.1 F i).Succeeds := by
    intro i inside
    exact succeeds_learn (by rwa [h₂.popSize]) F inside
  apply (perIndividual_yields learners).imp
  rintro learnt s₃ ⟨-, -, redrawn₃, -⟩
  exact evaluateAccept_proceeds total (h₂.redrawn redrawn₃) _

end Teaching

namespace Swarm

theorem remembered_of_get {run : Run Float P} {part : Part} {rows : Rows Float}
    (h : run.swarm.get part = some rows) : run.remembered part = .ok rows := by
  rw [Run.remembered, h]

/-- Preparing a swarm completes its memory. -/
theorem prepare_proceeds (h : s.1.Underway n d w) :
    Ends (prepare : Search σ Float P Unit) s (fun _ => False) fun _ s' =>
      s'.1.Underway n d w ∧ s'.1.swarm.Complete n d w := by
  obtain ⟨F, known, shapedF⟩ := h.fitness
  have noted : s.1.fitness = .ok F := by rw [Run.fitness, known]
  have empty : s.1.remarks = [] := h.recollects.1
  let still : Rows Float := Array.replicate s.1.popSize (Row.tabulate s.1.dim fun _ => Scalar.zero)
  have complete : Memory.Complete n d w ⟨some still, some s.1.X, some F⟩ := by
    refine ⟨still, s.1.X, F, rfl, ⟨?_, fun x hx => ?_⟩, h.positions, shapedF⟩
    · simp [still, h.popSize]
    · rw [(Array.mem_replicate.mp hx).2, Row.size_tabulate, h.dim]
  simp only [prepare, ends_bind, ends_update, ends_current, ends_ofExcept, remember_eq, Memory.set,
    empty, List.filter_nil]
  change (∀ b, s.1.fitness = .ok b → _) ∧ ∀ e, s.1.fitness = .error e → _
  rw [noted]
  refine forall_of_ok ?_
  exact ⟨⟨h.popSize, h.dim, h.objectives, h.lasting, h.positions, h.fitness, rfl, .inr complete⟩,
    complete⟩

theorem shaped_remember {X F bestX bestF : Rows Float} (sizeX : X.Shaped n d) (sizeF : F.Shaped n w)
    (sizeBestX : bestX.Shaped n d) (sizeBestF : bestF.Shaped n w) :
    (remember X F bestX bestF).1.Shaped n d ∧ (remember X F bestX bestF).2.Shaped n w := by
  have chosen {width : Nat} {new old : Rows Float} (shapedNew : new.Shaped n width)
      (shapedOld : old.Shaped n width) (better : Nat → Bool) : Rows.Shaped n width
        ((Array.range old.size).map fun i => if better i then new.row i else old.row i) := by
    rw [shapedOld.size]
    have each : ∀ i ∈ Array.range n, (if better i then new.row i else old.row i).size = width := by
      intro i hi
      rw [Array.mem_range] at hi
      split
      · exact shapedNew.row hi
      · exact shapedOld.row hi
    simpa using Rows.shaped_map each
  exact ⟨chosen sizeX sizeBestX _, chosen sizeF sizeBestF _⟩

theorem updateBests_proceeds (large : 0 < n) (h : s.1.Underway n d w)
    (complete : s.1.swarm.Complete n d w) :
    Ends (updateBests : Search σ Float P Unit) s (fun _ => False) fun _ s' =>
      s'.1.Underway n d w ∧ s'.1.swarm.Complete n d w := by
  obtain ⟨velocity, bestX, bestF, memory, shapedV, shapedX, shapedBestF⟩ := complete
  obtain ⟨F, known, shapedF⟩ := h.fitness_eq
  have empty : s.1.remarks = [] := h.recollects.1
  have foundX : s.1.remembered .bestX = .ok bestX := remembered_of_get (by rw [memory]; rfl)
  have foundF : s.1.remembered .bestF = .ok bestF := remembered_of_get (by rw [memory]; rfl)
  have widths : ¬((F.row 0).size != (bestF.row 0).size) = true := by
    simp [shapedF.row large, shapedBestF.row large]
  obtain ⟨newX, newF⟩ := shaped_remember h.positions shapedF shapedX shapedBestF
  have complete' : Memory.Complete n d w ⟨some velocity, some (remember s.1.X F bestX bestF).1,
      some (remember s.1.X F bestX bestF).2⟩ :=
    ⟨_, _, _, rfl, shapedV, newX, newF⟩
  simp only [updateBests, ends_bind, ends_current, ends_ofExcept, ends_ite, ends_throw, ends_update,
    foundX, foundF, known, Except.ok.injEq, forall_eq', reduceCtorEq, false_implies, implies_true,
    and_true, remember_eq, Memory.set, memory, empty, List.filter_nil]
  refine ⟨fun differ => widths differ, fun _ => ?_⟩
  exact ⟨⟨h.popSize, h.dim, h.objectives, h.lasting, h.positions, h.fitness, rfl, .inr complete'⟩,
    complete'⟩

theorem yields_accelerate {run : Run Float P} (h : run.Underway n d w) (settings : Settings)
    (velocity bestX : Rows Float) {i : Nat} (inside : i < n) :
    (accelerate settings run velocity bestX i).Yields fun v => v.size = d := by
  have units := succeeds_times succeeds_unit run.dim
  refine yields_bind (succeeds_leader h.hasBest) fun _ _ => yields_bind units fun _ _ =>
    yields_bind units fun _ _ => yields_pure ?_
  simp [limited, pulled, h.positions.row inside]

theorem fly_proceeds (large : 0 < n) (h : s.1.Underway n d w)
    (complete : s.1.swarm.Complete n d w) (settings : Settings) :
    Proceeds n d w (fly settings : Search σ Float P Unit) s := by
  simp only [fly, Proceeds, ends_bind, ends_current, ends_ofExcept, ends_ite, ends_throw,
    ends_update]
  apply (updateBests_proceeds large h complete).imp
  rintro _ s₁ ⟨h₁, complete₁⟩
  have measured := h₁.measureFront
  have kept : s₁.1.measureFront.swarm = s₁.1.swarm := by
    obtain ⟨tracker, same⟩ := measureFront_eq s₁.1
    rw [same]
  obtain ⟨velocity, bestX, bestF, memory, shapedV, shapedX, shapedF⟩ := complete₁
  rw [memory] at kept
  have foundV : s₁.1.measureFront.remembered .velocity = .ok velocity :=
    remembered_of_get (by rw [kept]; rfl)
  have foundX : s₁.1.measureFront.remembered .bestX = .ok bestX :=
    remembered_of_get (by rw [kept]; rfl)
  have widths : ¬((velocity.row 0).size != s₁.1.measureFront.dim ||
      (bestX.row 0).size != s₁.1.measureFront.dim) = true := by
    simp [shapedV.row large, shapedX.row large, measured.dim]
  rw [foundV, foundX]
  refine forall_of_ok (forall_of_ok ?_)
  refine ⟨fun differ => widths differ, fun _ => ?_⟩
  have each : ∀ i < s₁.1.measureFront.popSize,
      (accelerate settings s₁.1.measureFront velocity bestX i).Yields fun v => v.size = d := by
    intro i inside
    rw [measured.popSize] at inside
    exact yields_accelerate measured settings velocity bestX inside
  apply (perIndividual_yields (s := (s₁.1.measureFront, s₁.2)) each).imp
  rintro drawn s₂ ⟨size, widthsV, redrawn, -⟩
  have h₂ := measured.redrawn redrawn
  obtain ⟨streams, same⟩ := redrawn
  have empty : s₂.1.remarks = [] := h₂.recollects.1
  have swarm : s₂.1.swarm = ⟨some velocity, some bestX, some bestF⟩ := by
    rw [same]
    exact kept
  have complete₂ : Memory.Complete n d w ⟨some drawn, some bestX, some bestF⟩ :=
    ⟨drawn, bestX, bestF, rfl, ⟨size.trans measured.popSize, widthsV⟩, shapedX, shapedF⟩
  have launched : (s₂.1.remember .velocity drawn).Underway n d w := by
    rw [remember_eq, swarm, empty]
    exact ⟨h₂.popSize, h₂.dim, h₂.objectives, h₂.lasting, h₂.positions, h₂.fitness, rfl,
      .inr complete₂⟩
  exact launched.move _ _

/-- A swarm that remembers its velocities remembers everything. -/
theorem complete_of_remembers {run : Run Float P} (h : run.Underway n d w)
    (known : ¬(!run.remembers .velocity) = true) : run.swarm.Complete n d w := by
  obtain ⟨empty, none | complete⟩ := h.recollects
  · simp [Run.remembers, Memory.get, none, empty] at known
  · exact complete

theorem step_proceeds (large : 0 < n) (h : s.1.Underway n d w) (settings : Settings) :
    Proceeds n d w (step settings : Search σ Float P Unit) s := by
  rw [step_eq]
  simp only [Proceeds, ends_bind, ends_current, ends_ite]
  constructor
  · intro _
    apply (prepare_proceeds h).imp
    rintro _ s₁ ⟨h₁, complete⟩
    exact fly_proceeds large h₁ complete settings
  · intro known
    exact fly_proceeds large h (complete_of_remembers h known) settings

end Swarm

namespace Strategy

theorem prepare_proceeds (h : s.1.Underway n d w) (settings : Settings) :
    Proceeds n d w (prepare settings : Search σ Float P Unit) s := by
  cases settings with
  | swarm settings =>
    apply (Swarm.prepare_proceeds h).imp
    rintro _ s₁ ⟨h₁, _⟩
    exact h₁
  | genetic | differential | firefly | teaching => exact h

/-- A step succeeds if there are two individuals at least, and more than the donors that a formula
asks for. -/
theorem step_proceeds (total : evaluator.Total d w) (h : s.1.Underway n d w) {settings : Settings}
    (large : 2 ≤ n) (short : d ≤ 2 ^ 63)
    (donors : ∀ de, settings = .differential de → de.mutant.donors + 1 ≤ n) :
    Proceeds n d w (step settings evaluator) s := by
  cases settings with
  | genetic settings => exact Genetic.step_proceeds total h settings
  | differential settings => exact Differential.step_proceeds total h (donors settings rfl) short
  | swarm settings => exact Swarm.step_proceeds (by omega) h settings
  | firefly settings => exact Firefly.step_proceeds total h settings
  | teaching settings => exact Teaching.step_proceeds total h large

theorem generation_proceeds (total : evaluator.Total d w) (width : 1 ≤ w)
    (h : s.1.Underway n d w) {settings : Settings} (large : 2 ≤ n) (short : d ≤ 2 ^ 63)
    (donors : ∀ de, settings = .differential de → de.mutant.donors + 1 ≤ n) :
    Proceeds n d w (generation settings evaluator) s := by
  simp only [generation, Proceeds, ends_bind, ends_update]
  apply (step_proceeds total h large short donors).imp
  intro _ s₁ h₁
  apply (evaluateAll_proceeds total h₁).imp
  intro _ s₂ h₂
  apply (updateBest_proceeds width h₂).imp
  intro _ s₃ h₃
  exact h₃.completeGeneration

end Strategy

end BoxSearch
