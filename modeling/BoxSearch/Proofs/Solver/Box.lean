import BoxSearch.Proofs.Evaluation.Inside
import BoxSearch.Proofs.Except
import BoxSearch.Proofs.Run.Streams
import BoxSearch.Proofs.Solver.Fidelity
import BoxSearch.Proofs.Strategy.Boxed

/-!
Runs that never leave the box.

A run comes to its first population by sampling or by taking one over; from there on strategies and
callers do with it what they like, in any order. As long as neither the sample nor the arithmetic of
a step contains a "not a number", every point that the run keeps and every vector that the objective
is shown lies in the box, also where a step breaks off halfway.
-/

namespace BoxSearch

open Search

variable {σ P : Type} {box : Bounds Float} {J : σ → Prop}

namespace Run

/-- The rows that a call from outside brings along have no "not a number" in them. A population that
is taken over need not be looked at, since it is checked. -/
def Call.Numeric : Call σ → Prop
  | populate _ => False
  | evaluate X => X.Numeric
  | setPositions X _ => X.Numeric
  | replace _ X _ => X.Numeric
  | evaluateAll | seed _ _ | completeGeneration | updateBest => True

/-- The states that steps of a strategy and calls from outside lead to, one after another and in any
order. A step or a call that fails leaves a state, too. What happens elsewhere in between may change
the user's state, provided that its property is kept. -/
inductive Passed (settings : Settings) (evaluator : Evaluator σ Float P) (J : σ → Prop)
    (start : Run Float P × Session σ) : Run Float P × Session σ → Prop
  | here : Passed settings evaluator J start start
  | stepped {s : Run Float P × Session σ} (passed : Passed settings evaluator J start s)
      (drafts : Strategy.Drafts settings evaluator s) :
      Passed settings evaluator J start ((Strategy.step settings evaluator).run s).2
  | prepared {s : Run Float P × Session σ} (passed : Passed settings evaluator J start s) :
      Passed settings evaluator J start ((Strategy.prepare settings).run s).2
  | called {s : Run Float P × Session σ} (passed : Passed settings evaluator J start s)
      (call : Call σ) (numeric : call.Numeric) :
      Passed settings evaluator J start ((call.perform evaluator).run s).2
  | elsewhere {run : Run Float P} {session session' : Session σ}
      (passed : Passed settings evaluator J start (run, session)) (kept : J session'.user) :
      Passed settings evaluator J start (run, session')

/-- The points of a run that can be seen lie in the box, one entry per dimension: the population,
the rows that wait, the best places of a swarm, the best point and the front. -/
structure InBox (box : Bounds Float) (run : Run Float P) : Prop where
  population : ∀ x ∈ run.X, box.Inside x
  waiting : ∀ b ∈ run.pending, ∀ x ∈ b.X, box.Inside x
  personal : ∀ B, run.swarm.bestX = some B → ∀ x ∈ B, box.Inside x
  best : ∀ x, run.bestX = .ok x → box.Inside x
  front : ∀ front, run.front? = some front → ∀ x ∈ front.X, box.Inside x

theorem inBox_of_boxed {run : Run Float P} (h : run.Boxed) : run.InBox run.bounds := by
  have members {front : Front Float P} (found : run.front? = some front) :
      ∀ m ∈ front.members, run.bounds.Inside m.x := by
    obtain ⟨t, tracked, shown⟩ := Option.bind_eq_some_iff.mp found
    cases t with
    | single best => cases shown
    | several front' =>
      cases shown
      exact fun m hm => h.held _ tracked m (Array.mem_toList_iff.mpr hm)
  refine ⟨h.rows, fun b hb => (h.waiting b hb).2, fun B hB => (h.bests B hB).2, ?_, ?_⟩
  · intro x found
    rw [bestX] at found
    split at found
    case h_1 front shown =>
      obtain ⟨m, chosen, rfl⟩ := of_map found
      rw [Front.representative] at chosen
      split at chosen
      · cases chosen
        rename_i least
        obtain ⟨i, _, member⟩ := Option.bind_eq_some_iff.mp least
        exact members shown _ (Array.mem_of_getElem? member)
      · cases chosen
    case h_2 x' f product _ shown =>
      cases found
      rw [incumbent?] at shown
      split at shown
      case h_1 best tracked =>
        obtain ⟨y, point, same⟩ := Option.map_eq_some_iff.mp shown
        cases same
        exact h.held _ tracked ⟨x, #[best.fitness], best.product⟩ (by simp [Tracker.held, point])
      case h_2 => cases shown
    case h_3 => cases found
  · intro front shown x hx
    obtain ⟨m, hm, rfl⟩ := Array.mem_map.mp hx
    exact members shown m hm

variable {settings : Settings} {evaluator : Evaluator σ Float P} {s s₀ : Run Float P × Session σ}

theorem call_preserves (keeps : evaluator.Keeps box J) (h : Safe box J s) {call : Call σ}
    (numeric : call.Numeric) : Preserves box J (call.perform evaluator) s := by
  cases call with
  | populate initializer => exact numeric.elim
  | evaluate X =>
    simp only [Call.perform, evaluateArray, Preserves, bind_assoc, ends_bind, ends_current,
      ends_ofExcept, ends_pure]
    refine ⟨fun rows cut => evaluate_preserves keeps h ?_, fun _ _ => h⟩
    rw [Tensor.rowsOf] at cut
    split at cut
    · cases cut
    · split at cut
      · cases cut
      · cases cut
        exact Tensor.numeric_cut numeric _ _
  | evaluateAll =>
    simp only [Call.perform, Preserves, ends_bind, ends_pure]
    exact evaluateAll_preserves keeps h
  | seed X F => exact Initial.adopt_preserves h X F
  | setPositions X indices => exact setPositions_preserves h numeric indices
  | replace indices X F => exact replace_preserves h numeric indices F
  | completeGeneration =>
    exact ⟨h.bounds, ⟨⟨h.boxed.waiting, h.boxed.held, h.boxed.bests⟩, h.boxed.size, h.boxed.rows⟩,
      h.kept⟩
  | updateBest => exact updateBest_preserves h

/-- Whatever is done to a safe run, it stays safe. -/
theorem passed_safe (keeps : evaluator.Keeps box J) (h : Safe box J s₀)
    (passed : Passed settings evaluator J s₀ s) : Safe box J s := by
  induction passed with
  | here => exact h
  | stepped _ drafts ih => exact (Strategy.step_preserves keeps ih drafts).after
  | prepared _ ih => exact (Strategy.prepare_preserves ih settings).after
  | called _ call numeric ih => exact (call_preserves keeps ih numeric).after
  | elsewhere _ kept ih => exact ⟨ih.bounds, ih.boxed, kept⟩

/-- A generation is a step, an evaluation of what is stale and a fold. -/
theorem generation_preserves (keeps : evaluator.Keeps box J) (h : Safe box J s)
    (drafts : Strategy.Drafts settings evaluator s) :
    Preserves box J (Strategy.generation settings evaluator) s := by
  simp only [Strategy.generation, Preserves, ends_bind, ends_update]
  apply (Strategy.step_preserves keeps h drafts).imp
  intro _ s₁ safe₁
  apply (evaluateAll_preserves keeps safe₁).imp
  intro _ s₂ safe₂
  apply (updateBest_preserves safe₂).imp
  intro _ s₃ safe₃
  have completed : Preserves box J ((Call.completeGeneration : Call σ).perform evaluator) s₃ :=
    call_preserves keeps safe₃ trivial
  exact completed.after

end Run

namespace Plan

open Run

variable {plan : Plan σ}

theorem stored_start : plan.start.Stored :=
  ⟨by simp [start, Run.start], nofun, nofun⟩

/-- The first population lies in the box: a sampled one is moved there, and one that is taken over
is checked. -/
theorem populate_boxed (accepted : plan.Accepted) {session : Session σ}
    (sampled : plan.population = none → Ensures (Initial.sample (plan.initializer.getD .uniform))
      (plan.start, session) fun pool _ => pool.Numeric) :
    Ensures plan.populate (plan.start, session) fun _ s =>
      s.1.Boxed ∧ s.1.bounds = plan.target.bounds := by
  cases population : plan.population with
  | none =>
    simp only [populate, population]
    exact Initial.populate_boxed _ stored_start Array.size_replicate (sampled population)
  | some q =>
    have even := even_of_accepted accepted population
    simp only [populate, population, ensures_bind, ensures_current, ensures_ofExcept]
    intro q' passed
    obtain ⟨rfl, sizeX, sizeF⟩ := Population.check_ofRows even passed
    have inside := Population.inside_of_check passed even
    refine (seed_ensures _ _ _).mono fun _ s' seeded => ?_
    obtain ⟨run, registered, changed, _⟩ := seeded
    have ranked : (Fitness.rankedRows q'.F).size = q'.X.size :=
      (Fitness.size_rankedRows _).trans (sizeF.trans sizeX.symm)
    have same := (stored_registered stored_start registered).2.1
    rw [changed]
    exact ⟨boxed_seeded stored_start registered sizeX ranked inside _ _, same⟩

/-- Between two generations a run is safe, if every step on the way was made of numbers. -/
theorem reached_boxed (accepted : plan.Accepted)
    (sampled : ∀ session, plan.population = none →
      Ensures (Initial.sample (plan.initializer.getD .uniform)) (plan.start, session)
        fun pool _ => pool.Numeric)
    (drafts : ∀ n run session, plan.Reached n run →
      Strategy.Drafts plan.settings plan.evaluator (run, session))
    {n : Nat} {run : Run Float Value} (reached : plan.Reached n run) :
    run.Boxed ∧ run.bounds = plan.target.bounds := by
  -- nothing is asked of the user's state here
  let any : σ → Prop := fun _ => True
  have keeps : plan.evaluator.Keeps plan.target.bounds any := fun _ _ _ _ => trivial
  induction reached with
  | @ready run run' session s' t t' begun prepared =>
    rw [begin] at begun
    obtain ⟨_, s₁, populated, begun⟩ := of_run_bind begun
    obtain ⟨_, s₂, evaluated, folded⟩ := of_run_bind begun
    obtain ⟨boxed, bounds⟩ := populate_boxed accepted (sampled session) _ _ populated
    have safe₁ : Safe plan.target.bounds any s₁ := ⟨bounds, boxed, trivial⟩
    have safe₂ := (evaluateAll_preserves keeps safe₁).ensures _ _ evaluated
    have safe₃ := (updateBest_preserves safe₂).ensures _ _ folded
    have ready : Safe plan.target.bounds any (run, t) := ⟨safe₃.bounds, safe₃.boxed, trivial⟩
    have safe := (Strategy.prepare_preserves ready plan.settings).ensures _ _ prepared
    exact ⟨safe.boxed, safe.bounds⟩
  | @next n run run' session s' reached completed ih =>
    have before : Safe plan.target.bounds any (run, session) := ⟨ih.2, ih.1, trivial⟩
    have safe := (generation_preserves keeps before (drafts n run session reached)).ensures
      _ _ completed
    exact ⟨safe.boxed, safe.bounds⟩

/-- Nothing ever leaves the box, whatever the strategy, the settings, the seed and the objective,
provided that neither what is sampled nor the arithmetic of a step contains a "not a number". From
the first population on, in every state that steps and calls from outside lead to, in any order and
whether they fail or not, all points of the run lie in the box. So does every vector that the
objective is shown: a property of the user's state that its calls at points of the box keep is
always kept. The same holds of all states of a solver between its generations, and what a solver
reports is read off the last of them. -/
theorem nothing_leaves_the_box {plan : Plan σ} {J : σ → Prop} (accepted : plan.Accepted)
    (shown : plan.target.Keeps J)
    (foreign : ∀ type evaluate, plan.backend = .custom type evaluate →
      Evaluator.Keeps plan.target.bounds J (evaluate plan.target)) :
    (∀ session s₀ s,
      (plan.population = none → Ensures (Initial.sample (plan.initializer.getD .uniform))
        (plan.start, session) fun pool _ => pool.Numeric) →
      plan.populate.run (plan.start, session) = (.ok (), s₀) → J s₀.2.user →
      Run.Passed plan.settings plan.evaluator J s₀ s →
      s.1.InBox plan.target.bounds ∧ J s.2.user) ∧
    ((∀ session, plan.population = none →
        Ensures (Initial.sample (plan.initializer.getD .uniform)) (plan.start, session)
          fun pool _ => pool.Numeric) →
      (∀ n run session, plan.Reached n run →
        Strategy.Drafts plan.settings plan.evaluator (run, session)) →
      (∀ n run, plan.Reached n run → run.InBox plan.target.bounds) ∧
      ∀ st result st', st.1.history = #[] → plan.solve.run st = (.ok result, st') →
        ∃ n run history, plan.Reached n run ∧ run.InBox plan.target.bounds ∧
          plan.resultOf run history = .ok result) := by
  constructor
  · intro session s₀ s sampled populated kept passed
    obtain ⟨boxed, bounds⟩ := populate_boxed accepted sampled _ _ populated
    have keeps : plan.evaluator.Keeps plan.target.bounds J := Backend.keeps_evaluate shown foreign
    have safe := passed_safe keeps ⟨bounds, boxed, kept⟩ passed
    exact ⟨safe.bounds ▸ inBox_of_boxed safe.boxed, safe.kept⟩
  · intro sampled drafts
    have inBox (n : Nat) (run : Run Float Value) (reached : plan.Reached n run) :
        run.InBox plan.target.bounds := by
      obtain ⟨boxed, bounds⟩ := reached_boxed accepted sampled drafts reached
      exact bounds ▸ inBox_of_boxed boxed
    refine ⟨inBox, fun st result st' none solved => ?_⟩
    obtain ⟨n, run, history, reached, _, reported⟩ := of_run_solve none solved
    exact ⟨n, run, _, reached, inBox n run reached, reported⟩

end Plan

/-- The square of a number between zero and one. The objective writes down what it is shown. -/
def notedSquares : Problem (List (Row Float)) where
  bounds := .unitInterval
  objective x := ExceptT.mk fun seen => (.ok (.float (x.gene 0 * x.gene 0)), seen ++ [x])
  nObj := none
  name := "squares"
  returnsProduct := false

/-- Four points to start from, two of them far outside the box. -/
def farValue : Value :=
  .list [.list [.float (1.0 / 0.0)], .list [.float (-3.0)], .list [.float 0.25],
    .list [.float 0.75]]

def farPoints : Initializer (List (Row Float)) :=
  .custom (ExceptT.mk fun s => (.ok farValue, s))

/-- Differential evolution that starts from far away. -/
def farRequest : Request (List (Row Float)) where
  strategy := .strategy (.differential { popSize := 4 })
  overrides := []
  target := .target (.problem notedSquares)
  stopping := .ready ⟨.never, some 1⟩
  seed := .settled 0
  backend := .ready .serial
  workers := .absent
  callback := .none
  record := .none
  observers := []
  initializer := .function farPoints
  frontLimit := .absent
  population := .absent
  clock := ExceptT.mk fun s => (.ok 0.0, s)

/-- What becomes of the request. -/
def farPlan : Plan (List (Row Float)) where
  settings := .differential { popSize := 4 }
  target := .problem notedSquares
  policy := ⟨.never, some 1⟩
  seed := 0
  backend := .serial
  backendName := "SerialEvalBackend"
  owns := false
  callback := none
  record := none
  observers := []
  initializer := some farPoints
  frontLimit := none
  population := none
  clock := ExceptT.mk fun s => (.ok 0.0, s)

namespace Plan

/-- Everything that was written down lies in the box. -/
def Noted (seen : List (Row Float)) : Prop :=
  ∀ x ∈ seen, notedSquares.bounds.Inside x

instance (seen : List (Row Float)) : Decidable (Noted seen) :=
  inferInstanceAs (Decidable (∀ x ∈ seen, notedSquares.bounds.Inside x))

theorem notedSquares_keeps : (Target.problem notedSquares).Keeps Noted := by
  intro x inside seen noted y hy
  rcases List.mem_append.mp hy with before | new
  · exact noted y before
  · obtain rfl := List.mem_singleton.mp new
    exact inside

theorem farValue_numeric : ∀ t, farValue.toTensor = .ok t → t.Numeric :=
  of_decide (by decide +kernel)

theorem sample_farPoints (s : Run Float Value × Session (List (Row Float))) :
    Ensures (Initial.sample farPoints) s fun pool s' => pool.Numeric ∧ s'.1 = s.1 := by
  simp only [Initial.sample, farPoints, ensures_bind, ensures_current, ensures_act,
    ensures_ofExcept]
  intro v session answered pool read
  cases answered
  exact ⟨farValue_numeric pool read, trivial⟩

theorem populate_farPoints (s : Run Float Value × Session (List (Row Float))) :
    Ensures (Initial.populate farPoints) s fun _ s' => s'.1.streams = s.1.streams := by
  simp only [Initial.populate, ensures_bind, ensures_current, ensures_ite, ensures_throw]
  refine (sample_farPoints s).mono fun pool s₁ h₁ => ⟨fun _ => trivial, fun _ => ?_⟩
  refine (setPositions_ensures pool none).mono fun _ s₂ h₂ => ?_
  obtain ⟨X, F, stale, moved⟩ := h₂
  rw [moved, h₁.2]

/-- The population of far points once it has been evaluated: those from outside are on the borders. -/
def farState : Run Float Value × Session (List (Row Float)) :=
  ((Run.Call.evaluateAll.perform farPlan.evaluator).run
    (farPlan.populate.run (farPlan.start, ⟨[], #[]⟩)).2).2

theorem farState_populates : (farPlan.populate.run (farPlan.start, ⟨[], #[]⟩)).1.toBool = true := by
  decide +kernel

theorem farState_streams : farState.1.streams = .start 0 := by
  have first := populate_farPoints _ _ _ (run_eq_ok farState_populates)
  have succeeds : ((Run.Call.evaluateAll.perform farPlan.evaluator).run
      (farPlan.populate.run (farPlan.start, ⟨[], #[]⟩)).2).1.toBool = true := by decide +kernel
  obtain ⟨n, s, evaluated, same⟩ := of_run_bind (run_eq_ok succeeds)
  have second := evaluateAll_streams _ _ _ evaluated
  have last : s = farState := congrArg Prod.snd same
  rw [← last, second]
  exact first

theorem farState_drafts : Strategy.Drafts farPlan.settings farPlan.evaluator farState := by
  have popSize : farState.1.popSize = 4 := by decide +kernel
  -- nobody has drawn yet, so that every stream is where its seed puts it
  have trials : ∀ i < 4, ∀ x,
      (Differential.trial { popSize := 4 } farState.1 i (.seeded 0 i)).1 = .ok x → x.Numeric := by
    intro i hi
    apply of_decide
    revert i
    decide +kernel
  refine perIndividual_all (p := Row.Numeric) fun i hi b g drawn => ?_
  rw [popSize] at hi
  have fresh : farState.1.streams.get (.individual i) = .seeded 0 i := by
    rw [farState_streams]
    simp [Streams.get, Streams.start]
  rw [fresh] at drawn
  exact trials i hi b (congrArg Prod.fst drawn)

/-- Two of four points from outside are moved to the borders. A step of the strategy shows the
objective four more points, all of them in the box. -/
theorem nothing_leaves_the_box_far :
    farState.1.X = #[#[1.0], #[0.0], #[0.25], #[0.75]] ∧
    Strategy.Drafts farPlan.settings farPlan.evaluator farState ∧
    ((Strategy.step farPlan.settings farPlan.evaluator).run farState).2.1.InBox
      notedSquares.bounds ∧
    Noted ((Strategy.step farPlan.settings farPlan.evaluator).run farState).2.2.user := by
  have accepted : farPlan.Accepted := ⟨farRequest, 0, ⟨[], #[]⟩, _, rfl⟩
  obtain ⟨inBox, -⟩ := nothing_leaves_the_box (J := Noted) accepted notedSquares_keeps nofun
  have passed : Run.Passed farPlan.settings farPlan.evaluator Noted _ _ :=
    .stepped (.called .here .evaluateAll trivial) farState_drafts
  have sampled := (sample_farPoints (farPlan.start, ⟨[], #[]⟩)).mono fun _ _ h => h.1
  have safe := inBox _ _ _ (fun _ => sampled) (run_eq_ok farState_populates) (by decide +kernel)
    passed
  exact ⟨by decide +kernel, farState_drafts, safe.1, safe.2⟩

end Plan

end BoxSearch
