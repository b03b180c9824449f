import BoxSearch.Proofs.Run.Boxed
import BoxSearch.Proofs.Strategy.Moves

/-!
No strategy leaves the box, as long as its arithmetic gives numbers.

What a step draws up before anything is moved into the box is said once for each strategy. If there
is no "not a number" in it then all rows that the step shows to the evaluator, and all that it
writes, lie in the box, whatever infinities and far-off numbers there were.
-/

namespace BoxSearch

open Search Run

variable {σ P : Type} {box : Bounds Float} {J : σ → Prop} {evaluator : Evaluator σ Float P}
  {s : Run Float P × Session σ}

/-- The box still holds the population if a candidate takes the place of one member. -/
theorem boxed_take {run : Run Float P} (h : run.Boxed) {C : Rows Float} (numeric : C.Numeric)
    (FC : Rows Float) (i k : Nat) : (run.overwrite [i] #[C.row k] #[FC.row k]).Boxed := by
  apply boxed_overwrite h
  intro x hx
  obtain rfl := Array.mem_singleton.mp hx
  exact C.numeric_row numeric _

namespace Genetic

/-- The families of a generation, without those whose children are the same as their parents. -/
def newFamilies (settings : Settings) (start : Run Float P) :
    Search σ Float P (List (Family Float)) := do
  let order ← draw .driver (Draw.shuffled (Array.range start.popSize))
  let families ← (pairs order.toList).mapM fun (a, b) => breed settings a b
  return families.filter (Family.isNew start.X)

/-- The children of the new families have no "not a number" among their genes. -/
def Drafts (settings : Settings) (s : Run Float P × Session σ) : Prop :=
  Ensures (newFamilies settings s.1) s fun families _ => (children families).Numeric

/-- What comes after the draws of a generation: the children of new families are evaluated and
compete. -/
def contest (evaluator : Evaluator σ Float P) (start : Run Float P)
    (families : List (Family Float)) : Search σ Float P Unit := do
  if families.isEmpty then log (.noChildren start.generation)
  else
    let C := start.bounds.clipRows (children families)
    let FC ← evaluate evaluator C
    let _ ← Search.ofExcept (← current).fitness
    update (competeAll families C FC)

theorem step_eq (settings : Settings) (evaluator : Evaluator σ Float P) :
    step settings evaluator = (do
      let start ← current
      let families ← newFamilies settings start
      contest evaluator start families) := by
  simp only [step, newFamilies, contest, children, bind_assoc, pure_bind]

theorem newFamilies_preserves (h : Safe box J s) (settings : Settings) (start : Run Float P) :
    Preserves box J (newFamilies settings start) s := by
  simp only [newFamilies, Preserves, ends_bind, ends_pure]
  apply (draw_preserves h _ _).imp
  intro order s₁ safe₁
  refine ends_mapM _ safe₁ fun pair _ s₂ safe₂ => ?_
  simp only [breed, ends_bind, ends_current, ends_pure]
  apply (draw_preserves safe₂ _ _).imp
  intro _ s₃ safe₃
  exact draw_preserves safe₃ _ _

theorem boxed_competeAll {run : Run Float P} (h : run.Boxed) (families : List (Family Float))
    {C : Rows Float} (numeric : C.Numeric) (FC : Rows Float) :
    (competeAll families C FC run).Boxed := by
  apply competeAll_induction h
  intro run' i k h' _
  exact boxed_take h' numeric _ i k

theorem bounds_competeAll (run : Run Float P) (families : List (Family Float)) (C FC : Rows Float) :
    (competeAll families C FC run).bounds = run.bounds := by
  obtain ⟨X, F, stale, same⟩ := competeAll_repositions families C FC run
  rw [same]

theorem step_preserves (keeps : evaluator.Keeps box J) (h : Safe box J s) {settings : Settings}
    (drafts : Drafts settings s) : Preserves box J (step settings evaluator) s := by
  rw [step_eq]
  simp only [contest, Preserves, ends_bind, ends_current, ends_ite, ends_log, ends_ofExcept,
    ends_update]
  apply ((newFamilies_preserves h settings s.1).and_ensures drafts).imp
  rintro families s₁ ⟨safe₁, numeric⟩
  refine ⟨fun _ => ⟨safe₁.bounds, safe₁.boxed, safe₁.kept⟩, fun _ => ?_⟩
  have inside := Bounds.inside_clipRows (b := s.1.bounds) numeric
  have clipped : (s.1.bounds.clipRows (children families)).Numeric :=
    fun x hx => (inside x hx).numeric
  apply (evaluate_preserves keeps safe₁ clipped).imp
  intro FC s₂ safe₂
  refine ⟨fun _ _ => ⟨?_, boxed_competeAll safe₂.boxed families clipped FC, safe₂.kept⟩,
    fun _ _ => safe₂⟩
  exact (bounds_competeAll _ _ _ _).trans safe₂.bounds

end Genetic

namespace Differential

/-- The trials have no "not a number" among their genes. -/
def Drafts (settings : Settings) (s : Run Float P × Session σ) : Prop :=
  Ensures (perIndividual (trial settings s.1)) s fun trials _ => Rows.Numeric trials

theorem step_preserves (keeps : evaluator.Keeps box J) (h : Safe box J s) {settings : Settings}
    (drafts : Drafts settings s) : Preserves box J (step settings evaluator) s := by
  simp only [step, Preserves, ends_bind, ends_current]
  apply ((perIndividual_preserves h _).and_ensures drafts).imp
  rintro trials s₁ ⟨safe₁, numeric⟩
  have inside := Bounds.inside_clipRows (b := s.1.bounds) numeric
  exact evaluateAccept_preserves keeps safe₁ fun x hx => (inside x hx).numeric

end Differential

namespace Firefly

/-- The candidates have no "not a number" among their genes. -/
def Drafts (settings : Settings) (s : Run Float P × Session σ) : Prop :=
  ∀ F, s.1.fitness = .ok F → Ensures (perIndividual (candidates settings s.1 F)) s
    fun drawn _ => ∀ own ∈ drawn, ∀ x ∈ own, x.Numeric

theorem boxed_settleAll {run : Run Float P} (h : run.Boxed) (F : Rows Float) {C : Rows Float}
    (numeric : C.Numeric) (FC : Rows Float) (counts : List Nat) :
    (settleAll F C FC counts run).Boxed := by
  apply settleAll_induction h
  intro run' i k h' _
  exact boxed_take h' numeric _ i k

theorem bounds_settleAll (F C FC : Rows Float) (counts : List Nat) (run : Run Float P) :
    (settleAll F C FC counts run).bounds = run.bounds := by
  obtain ⟨X, F, stale, same⟩ := settleAll_repositions F C FC counts run
  rw [same]

theorem step_preserves (keeps : evaluator.Keeps box J) (h : Safe box J s) {settings : Settings}
    (drafts : Drafts settings s) : Preserves box J (step settings evaluator) s := by
  simp only [step, Preserves, ends_bind, ends_current, ends_ofExcept, ends_update]
  refine ⟨fun F known => ?_, fun _ _ => h⟩
  apply ((perIndividual_preserves h _).and_ensures (drafts F known)).imp
  rintro drawn s₁ ⟨safe₁, numeric⟩
  have all : Rows.Numeric (drawn.toList.flatMap id).toArray := by
    intro x hx
    obtain ⟨own, mem, here⟩ := List.mem_flatMap.mp (List.mem_toArray.mp hx)
    exact numeric own (Array.mem_toList_iff.mp mem) x here
  have inside := Bounds.inside_clipRows (b := s.1.bounds) all
  have clipped : (s.1.bounds.clipRows (drawn.toList.flatMap id).toArray).Numeric :=
    fun x hx => (inside x hx).numeric
  apply (evaluate_preserves keeps safe₁ clipped).imp
  intro FC s₂ safe₂
  refine ⟨?_, boxed_settleAll safe₂.boxed F clipped FC _, safe₂.kept⟩
  exact (bounds_settleAll _ _ _ _ _).trans safe₂.bounds

end Firefly

namespace Teaching

/-- The candidates of both phases have no "not a number" among their genes. Those of the second
phase are drawn up from the population that the first one leaves. -/
def Drafts (evaluator : Evaluator σ Float P) (s : Run Float P × Session σ) : Prop :=
  (Ensures (perIndividual (teach s.1 (Rows.meanRow s.1.dim s.1.X))) s
    fun taught _ => Rows.Numeric taught) ∧
  Ensures (teacherPhase evaluator) s fun _ s' => ∀ F, s'.1.fitness = .ok F →
    Ensures (perIndividual (learn s'.1 F)) s' fun learnt _ => Rows.Numeric learnt

theorem candidates_preserve (keeps : evaluator.Keeps box J) (h : Safe box J s)
    {each : Nat → Draw (Row Float)}
    (numeric : Ensures (perIndividual each) s fun drawn _ => Rows.Numeric drawn) :
    Ends (perIndividual each) s (Safe box J) fun candidates s' =>
      Preserves box J (evaluateAccept evaluator (s.1.bounds.clipRows candidates)) s' := by
  apply ((perIndividual_preserves h _).and_ensures numeric).imp
  rintro candidates s₁ ⟨safe₁, number⟩
  have inside := Bounds.inside_clipRows (b := s.1.bounds) number
  exact evaluateAccept_preserves keeps safe₁ fun x hx => (inside x hx).numeric

theorem step_preserves (keeps : evaluator.Keeps box J) (h : Safe box J s)
    (drafts : Drafts evaluator s) : Preserves box J (step evaluator) s := by
  obtain ⟨taught, learnt⟩ := drafts
  have first : Preserves box J (teacherPhase evaluator) s := by
    simp only [teacherPhase, Preserves, ends_bind, ends_current]
    exact candidates_preserve keeps h taught
  simp only [step, Preserves, ends_bind]
  apply (first.and_ensures learnt).imp
  rintro _ s₁ ⟨safe₁, numeric⟩
  simp only [learnerPhase, ends_bind, ends_current, ends_ofExcept]
  exact ⟨fun F known => candidates_preserve keeps safe₁ (numeric F known), fun _ _ => safe₁⟩

end Teaching

namespace Swarm

/-- A flight up to the new velocities. -/
def accelerateAll (settings : Settings) : Search σ Float P (Rows Float) := do
  updateBests
  update Run.measureFront
  let run ← current
  let velocity ← Search.ofExcept (run.remembered .velocity)
  let bestX ← Search.ofExcept (run.remembered .bestX)
  if (velocity.row 0).size != run.dim || (bestX.row 0).size != run.dim then throw (.fault .value)
  perIndividual (accelerate settings run velocity bestX)

theorem fly_eq (settings : Settings) :
    (fly settings : Search σ Float P Unit) = (do
      let velocity ← accelerateAll settings
      update fun run =>
        (run.remember .velocity velocity).moveAll (Array.zipWith moved run.X velocity)) := by
  simp only [fly, accelerateAll, bind_assoc]
  refine bind_congr fun _ => bind_congr fun _ => bind_congr fun run => bind_congr fun velocity =>
    bind_congr fun bestX => ?_
  split <;> rfl

/-- The positions that the new velocities lead to have no "not a number" among their genes. -/
def Drafts (settings : Settings) (s : Run Float P × Session σ) : Prop :=
  Ensures (do
    if !(← current).remembers .velocity then prepare
    accelerateAll settings) s fun velocity s' => Rows.Numeric (Array.zipWith moved s'.1.X velocity)

/-- The places where particles are become the best places they have been to. -/
theorem prepare_preserves (h : Safe box J s) :
    Preserves box J (prepare : Search σ Float P Unit) s := by
  have stored (memory : Memory Float) (remarks : List (String × Note Float))
      (same : memory.bestX = some s.1.X) :
      Safe box J ({ s.1 with swarm := memory, remarks }, s.2) := by
    refine ⟨h.bounds, ⟨⟨h.boxed.waiting, h.boxed.held, fun B hB => ?_⟩, h.boxed.size, h.boxed.rows⟩,
      h.kept⟩
    change memory.bestX = some B at hB
    rw [same] at hB
    cases hB
    exact ⟨h.boxed.size, h.boxed.rows⟩
  simp only [prepare, Preserves, ends_bind, ends_update, ends_current, ends_ofExcept, remember_eq,
    Memory.set]
  exact ⟨fun F _ => stored _ _ rfl, fun _ _ => stored _ _ rfl⟩

theorem updateBests_preserves (h : Safe box J s) :
    Preserves box J (updateBests : Search σ Float P Unit) s := by
  simp only [updateBests, Preserves, ends_bind, ends_current, ends_ofExcept, ends_ite, ends_throw,
    ends_update, remember_eq, Memory.set]
  refine ⟨fun bestX hX => ⟨fun bestF _ => ⟨fun F _ => ⟨fun _ => h, fun _ => ?_⟩, fun _ _ => h⟩,
    fun _ _ => h⟩, fun _ _ => h⟩
  obtain ⟨size, inside⟩ := h.boxed.bests bestX (remembered_eq hX)
  refine ⟨h.bounds, ⟨⟨h.boxed.waiting, h.boxed.held, fun B hB => ?_⟩, h.boxed.size, h.boxed.rows⟩,
    h.kept⟩
  cases hB
  refine ⟨by simp [remember, size], fun x hx => ?_⟩
  obtain ⟨i, hi, rfl⟩ := Array.mem_map.mp hx
  have below : i < bestX.size := by simpa using hi
  have new : s.1.X.row i ∈ s.1.X := by simp [Rows.row, h.boxed.size, ← size, below]
  have old : bestX.row i ∈ bestX := by simp [Rows.row, below]
  split
  · exact h.boxed.rows _ new
  · exact inside _ old

theorem boxed_measureFront {run : Run Float P} (h : run.Boxed) :
    run.measureFront.Boxed ∧ run.measureFront.bounds = run.bounds := by
  rw [measureFront]
  split
  case h_1 front tracked =>
    refine ⟨⟨⟨h.waiting, fun t ht m hm => ?_, h.bests⟩, h.size, h.rows⟩, rfl⟩
    cases ht
    exact h.held _ tracked m hm
  case h_2 => exact ⟨h, rfl⟩

theorem accelerateAll_preserves (h : Safe box J s) (settings : Settings) :
    Preserves box J (accelerateAll settings) s := by
  simp only [accelerateAll, Preserves, ends_bind, ends_current, ends_ofExcept, ends_ite, ends_throw,
    ends_update]
  apply (updateBests_preserves h).imp
  intro _ s₁ safe₁
  obtain ⟨boxed, bounds⟩ := boxed_measureFront safe₁.boxed
  have measured : Safe box J (s₁.1.measureFront, s₁.2) :=
    ⟨bounds.trans safe₁.bounds, boxed, safe₁.kept⟩
  exact ⟨fun velocity _ => ⟨fun bestX _ =>
    ⟨fun _ => measured, fun _ => perIndividual_preserves measured _⟩,
    fun _ _ => measured⟩, fun _ _ => measured⟩

theorem fly_preserves (h : Safe box J s) {settings : Settings}
    (drafts : Ensures (accelerateAll settings) s fun velocity s' =>
      Rows.Numeric (Array.zipWith moved s'.1.X velocity)) :
    Preserves box J (fly settings : Search σ Float P Unit) s := by
  rw [fly_eq]
  simp only [Preserves, ends_bind, ends_update]
  apply ((accelerateAll_preserves h settings).and_ensures drafts).imp
  rintro velocity s₁ ⟨safe₁, numeric⟩
  have launched : (s₁.1.remember .velocity velocity).Boxed :=
    ⟨⟨safe₁.boxed.waiting, safe₁.boxed.held, safe₁.boxed.bests⟩, safe₁.boxed.size, safe₁.boxed.rows⟩
  exact ⟨safe₁.bounds, boxed_move launched numeric _, safe₁.kept⟩

theorem step_preserves (h : Safe box J s) {settings : Settings} (drafts : Drafts settings s) :
    Preserves box J (step settings : Search σ Float P Unit) s := by
  rw [Drafts] at drafts
  simp only [ensures_bind, ensures_ite, ensures_current] at drafts
  rw [step_eq]
  simp only [Preserves, ends_bind, ends_current, ends_ite]
  refine ⟨fun forgot => ?_, fun knows => fly_preserves h (drafts.2 knows)⟩
  apply ((prepare_preserves h).and_ensures (drafts.1 forgot)).imp
  rintro _ s₁ ⟨safe₁, numeric⟩
  exact fly_preserves safe₁ numeric

end Swarm

namespace Strategy

/-- What one step draws up from a state has no "not a number" in it. -/
def Drafts (settings : Settings) (evaluator : Evaluator σ Float P) (s : Run Float P × Session σ) :
    Prop :=
  match settings with
  | .genetic settings => Genetic.Drafts settings s
  | .differential settings => Differential.Drafts settings s
  | .swarm settings => Swarm.Drafts settings s
  | .firefly settings => Firefly.Drafts settings s
  | .teaching _ => Teaching.Drafts evaluator s

theorem prepare_preserves (h : Safe box J s) (settings : Settings) :
    Preserves box J (prepare settings : Search σ Float P Unit) s := by
  cases settings with
  | swarm settings => exact Swarm.prepare_preserves h
  | genetic | differential | firefly | teaching => exact h

/-- No step of any strategy leaves the box, be it that the step fails. -/
theorem step_preserves (keeps : evaluator.Keeps box J) (h : Safe box J s) {settings : Settings}
    (drafts : Drafts settings evaluator s) : Preserves box J (step settings evaluator) s := by
  cases settings with
  | genetic settings => exact Genetic.step_preserves keeps h drafts
  | differential settings => exact Differential.step_preserves keeps h drafts
  | swarm settings => exact Swarm.step_preserves h drafts
  | firefly settings => exact Firefly.step_preserves keeps h drafts
  | teaching settings => exact Teaching.step_preserves keeps h drafts

end Strategy

end BoxSearch
