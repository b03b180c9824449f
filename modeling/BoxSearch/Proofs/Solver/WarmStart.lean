import BoxSearch.Proofs.Kinship.Opening
import BoxSearch.Proofs.Kinship.Solver

/-!
A warm start is a cold start less the first evaluations.

A run that takes over points with their fitness and a run that samples the same points and evaluates
them are kin from the first generation to the last. Only the numbers of evaluations differ, and they
always differ by the size of the population.
-/

namespace BoxSearch

open Search

variable {σ : Type} {R S : Float → Float → Prop}

/-- The function answers the points whatever happened before, and changes nothing. -/
def Call.Returns (sample : Call σ Value) (dim : Nat) (X : Rows Float) : Prop :=
  ∃ v, v.toTensor = .ok (.ofRows dim X) ∧ ∀ user, sample.run user = (.ok v, user)

/-- One point of the box for every individual, each with the raw fitness that `f` gives it. -/
structure Population.Evaluated.Records (S : Float → Float → Prop) (f : Row Float → Row Float)
    (n : Nat) (box : Bounds Float) (q : Population.Evaluated Float) : Prop where
  positions : q.X.Shaped n box.dim
  inside : box.holdsRows q.X = true
  fitness : Rows.Kin S q.F (q.X.map f)

theorem Population.Evaluated.Records.shaped_F {f : Row Float → Row Float} {n : Nat}
    {box : Bounds Float} {q : Population.Evaluated Float} (h : q.Records S f n box)
    (width : ∀ x : Row Float, x.size = box.dim → (f x).size = q.width) :
    q.F.Shaped n q.width := by
  have size := h.fitness.size_eq
  rw [Array.size_map, h.positions.size] at size
  refine ⟨size, fun y hy => ?_⟩
  obtain ⟨i, hi, rfl⟩ := Array.getElem_of_mem hy
  have below : i < q.X.size := by rw [h.positions.size, ← size]; exact hi
  have row := h.fitness.getElem i hi (by simpa using below)
  rw [row.size_eq, Array.getElem_map]
  exact width _ (h.positions.each _ (Array.getElem_mem below))

/-- A run that has taken over points is underway once these are folded. -/
theorem Run.Blank.seeded_assembled {P : Type} {run : Run Float P} {n d w : Nat}
    (h : run.Blank n d) (large : 0 < n) {t : Tracker Float P} {X F : Rows Float}
    (start : Tracker.start run.dim w run.frontLimit = .ok t) (positions : X.Shaped n d)
    (fitness : F.Shaped n w) : (run.seeded w t X F).Assembled n d w where
  popSize := h.popSize
  dim := h.dim
  objectives := rfl
  tracked := ⟨t, run.frontLimit, rfl, h.dim ▸ start⟩
  waiting := ⟨_, Array.mem_push_self, positions.size.symm ▸ large,
    fitness.rankedRows.size.trans positions.size.symm⟩
  positions := positions
  fitness := ⟨_, rfl, fitness.rankedRows⟩
  remarks := h.remarks
  swarm := h.swarm

/-- Points that a sample returns become the population. -/
theorem Initial.populate_returned {P : Type} {source : Call σ Value} {X : Rows Float}
    {s : Run Float P × Session σ} (returns : source.Returns s.1.dim X)
    (shaped : X.Shaped s.1.popSize s.1.dim) :
    Ends (populate (.custom source)) s (fun _ => False) fun _ s' => s' = (s.1.moveAll X, s.2) := by
  obtain ⟨v, read, answered⟩ := returns
  have called : (Act.call source).run s.2 = (.ok v, s.2) := by
    have attempted : (Act.attempt source).run s.2 = (.ok (.ok v), s.2) := by
      change (Except.ok (source.run s.2.user).1, { s.2 with user := (source.run s.2.user).2 }) = _
      rw [answered]
    rw [Act.call, run_bind, attempted]
    rfl
  have even : ∀ x ∈ X.toList, x.size = s.1.dim :=
    fun x hx => shaped.each x (Array.mem_toList_iff.mp hx)
  have cut := Tensor.rowsExactly_ofRows even
  rw [shaped.size] at cut
  have shape : (Tensor.ofRows s.1.dim X).shape = [s.1.popSize, s.1.dim] := by
    rw [← shaped.size]
    rfl
  simp only [populate, Initial.sample, setPositions, ends_bind, ends_current, ends_ite, ends_throw,
    ends_act, called, ends_ofExcept, ends_update, read]
  simp [shape, cut]

namespace Plan

/-- The plan with points to start from whose fitness is known. -/
def warm (plan : Plan σ) (q : Population.Evaluated Float) : Plan σ :=
  plan.withOpening (some q) none

/-- The plan with a function that samples the points to start from. -/
def cold (plan : Plan σ) (source : Call σ Value) : Plan σ :=
  plan.withOpening none (some (.custom source))

theorem start_blank (plan : Plan σ) :
    plan.start.Blank plan.settings.popSize plan.target.bounds.dim :=
  ⟨rfl, rfl, rfl, rfl, rfl, Array.size_replicate, Array.size_replicate, rfl, rfl⟩

/-- To begin is to fold what has been assembled. -/
theorem begin_of_opened {plan : Plan σ} {session : Session σ} {run : Run Float Value × Session σ}
    {count : Nat}
    (opened : (plan.populate >>= fun _ => evaluateAll plan.evaluator).run (plan.start, session) =
      (.ok count, run)) : plan.begin.run (plan.start, session) = updateBest.run run := by
  rw [begin, ← bind_assoc, run_bind, opened]

/-- What a warm and a cold start have in common. The objective is a function `f` of the point, which
does not tell kin points apart. The points are as many as the settings say, lie in the box, and stay
kin if they are moved into it; their fitness is known, and there is a function that returns them.
Nobody who is asked or told looks at numbers of evaluations or at a clock. -/
structure Restart (R S : Float → Float → Prop) (plan : Plan σ) (f : Row Float → Row Float)
    (q : Population.Evaluated Float) (source : Call σ Value) : Prop where
  checked : plan.settings.Checked
  limit : ∀ n, plan.frontLimit = some n → 0 < n
  computes : plan.evaluator.Computes f plan.target.bounds.dim q.width
  respects : ∀ x x' : Row Float, x.size = plan.target.bounds.dim → Related R x x' →
    Related S (f x) (f x')
  width : 1 ≤ q.width
  declared : ∀ n, plan.target.nObj = some n → n = (q.width : Int)
  known : q.Records S f plan.settings.popSize plan.target.bounds
  unmoved : Rows.Kin R q.X (plan.target.bounds.clipRows q.X)
  returns : source.Returns plan.target.bounds.dim q.X
  blind : plan.Blind R S

namespace Restart

variable {plan : Plan σ} {f : Row Float → Row Float} {q : Population.Evaluated Float}
  {source : Call σ Value} (h : plan.Restart R S f q source)

include h

theorem limited : q.width = 1 ∨ ∃ limit, Front.limitOf plan.start.frontLimit = .ok limit := by
  refine .inr ⟨plan.frontLimit, ?_⟩
  cases chosen : plan.frontLimit with
  | none => simp [start, Run.start, chosen, Front.limitOf]
  | some n =>
    have asked : plan.start.frontLimit = .int n := by simp [start, Run.start, chosen]
    rw [asked, Front.limitOf_nat (h.limit n chosen)]

theorem warm_opens (session : Session σ) :
    Search.Ends ((plan.warm q).populate >>= fun _ => evaluateAll plan.evaluator)
      (plan.start, session) (fun _ => False) fun _ s => s.2.user = session.user ∧
        ∃ t, Tracker.start plan.start.dim q.width plan.start.frontLimit = .ok t ∧
          s.1 = plan.start.seeded q.width t q.X q.F := by
  have shapedF := h.known.shaped_F h.computes.width
  have even : q.Even plan.start.dim :=
    ⟨fun x hx => h.known.positions.each x (Array.mem_toList_iff.mp hx),
      fun y hy => shapedF.each y (Array.mem_toList_iff.mp hy)⟩
  have passes : Population.check (.ofRows plan.start.dim q.X) (.ofRows q.width q.F)
      plan.start.popSize plan.start.bounds (Initial.declaredObjectives plan.start) = .ok q :=
    Population.check_eq_ok even h.known.positions.size shapedF.size h.width h.declared
      h.known.inside
  have seeded := Search.seed_ends (s := (plan.start, session)) plan.start_blank.untracked
    h.declared h.limited q.X q.F
  simp only [populate, warm, withOpening, ends_bind, ends_current, ends_ofExcept, passes]
  refine forall_of_ok ?_
  apply seeded.imp
  rintro _ s ⟨user, t, start, changed⟩
  have settled : s.1.stalePlaces = [] := by rw [changed, Run.stalePlaces_seeded]
  apply (evaluateAll_rests settled).imp
  rintro _ s' rfl
  exact ⟨user, t, start, changed⟩

theorem cold_opens (session : Session σ) :
    Search.Ends ((plan.cold source).populate >>= fun _ => evaluateAll plan.evaluator)
      (plan.start, session) (fun _ => False) fun _ s => s.2.user = session.user ∧
        ∃ t, Tracker.start plan.start.dim q.width plan.start.frontLimit = .ok t ∧
          s.1 = (plan.start.seeded q.width t (plan.target.bounds.clipRows q.X)
            ((plan.target.bounds.clipRows q.X).map f)).paid plan.settings.popSize := by
  have large : 0 < plan.settings.popSize := by
    have := h.checked.two_le_popSize
    omega
  rw [ends_bind]
  apply (Initial.populate_returned h.returns h.known.positions).imp
  rintro _ s rfl
  exact plan.start_blank.evaluateAll_ends h.computes large h.known.positions h.declared h.limited

variable [Kinship R] [Kinship S]

omit [Kinship R] in
/-- The points with their known fitness and the moved points with their computed fitness are kin. -/
theorem kin_fitness : Rows.Kin S q.F ((plan.target.bounds.clipRows q.X).map f) :=
  h.known.fitness.rows_trans
    (Evaluator.Computes.map_kin h.respects h.unmoved h.known.positions.each)

/-- The two plans begin alike, except that one of them pays for the evaluations. -/
theorem begins_kin (J : σ → σ → Prop) :
    BeginsKin J R S plan.target.bounds plan.settings.popSize (plan.warm q) (plan.cold source) := by
  intro session session' users
  obtain ⟨_, s, opened, user, t, start, changed⟩ := exists_of_ends (h.warm_opens session)
  obtain ⟨_, s', opened', user', t', start', changed'⟩ := exists_of_ends (h.cold_opens session')
  rw [start] at start'
  cases start'
  have kin : KinStates J R S plan.target.bounds plan.settings.popSize s s' := by
    refine ⟨?_, by rw [user, user']; exact users⟩
    rw [changed, changed']
    exact plan.start_blank.seeded_kin rfl start h.unmoved h.kin_fitness _
  have begun : (plan.warm q).begin.run ((plan.warm q).start, session) = updateBest.run s :=
    begin_of_opened opened
  have begun' : (plan.cold source).begin.run ((plan.cold source).start, session') =
      updateBest.run s' :=
    begin_of_opened opened'
  rw [begun, begun']
  exact kin_updateBest s s' kin

omit [Kinship R] [Kinship S] in
theorem kin_evaluator (J : σ → σ → Prop) :
    Evaluator.Kin J R S plan.target.bounds plan.evaluator plan.evaluator :=
  h.computes.kin rfl h.respects

omit [Kinship R] [Kinship S] in
theorem warm_begins (session : Session σ) :
    Search.Ends (plan.warm q).begin (plan.start, session) (fun _ => False) fun _ s =>
      s.1.Underway plan.settings.popSize plan.target.bounds.dim q.width := by
  have large := h.checked.two_le_popSize
  obtain ⟨_, s, opened, -, t, start, changed⟩ := exists_of_ends (h.warm_opens session)
  have assembled : s.1.Assembled plan.settings.popSize plan.target.bounds.dim q.width := by
    rw [changed]
    exact plan.start_blank.seeded_assembled (by omega) start h.known.positions
      (h.known.shaped_F h.computes.width)
  have objective : s.1.nObj ≠ some 0 := by
    have width := h.width
    rw [assembled.objectives, Ne, Option.some.injEq]
    omega
  obtain ⟨s', folded⟩ := updateBest_succeeds (σ := σ) objective
  have begun : (plan.warm q).begin.run (plan.start, session) = (.ok (), s') :=
    (begin_of_opened opened).trans folded
  have changed' := (updateBest_ensures _ _ folded).1
  rw [Search.Ends, begun]
  dsimp only
  rw [changed']
  exact assembled.folded

omit [Kinship R] [Kinship S] in
/-- The warm plan gets as far as one likes. -/
theorem warm_reaches (short : plan.target.bounds.dim ≤ 2 ^ 63) (session : Session σ) (k : Nat) :
    ∃ run, (plan.warm q).Reached k run ∧
      run.Underway plan.settings.popSize plan.target.bounds.dim q.width := by
  have large := h.checked.two_le_popSize
  have donors : ∀ de, plan.settings = .differential de →
      de.mutant.donors + 1 ≤ plan.settings.popSize := by
    intro de chosen
    have checked := h.checked
    rw [chosen] at checked ⊢
    exact checked.donors_lt_popSize
  induction k with
  | zero =>
    obtain ⟨_, s, begun, underway⟩ := exists_of_ends (h.warm_begins session)
    obtain ⟨_, s', prepared, underway'⟩ :=
      exists_of_ends (Strategy.prepare_proceeds underway plan.settings)
    exact ⟨s'.1, .ready begun prepared, underway'⟩
  | succ k ih =>
    obtain ⟨run, reached, underway⟩ := ih
    obtain ⟨_, s', completed, underway'⟩ := exists_of_ends
      (Strategy.generation_proceeds (s := (run, session)) h.computes.total h.width underway large
        short donors)
    exact ⟨s'.1, .next reached completed, underway'⟩

end Restart

/-- A warm start is a cold start less the first evaluations. After as many generations the runs of
the two plans are kin: points, fitness, stale marks, trackers, velocities, personal bests and
streams are, and the cold run has made as many evaluations more as there are individuals. One plan
gets as far as the other, and both as far as one likes if indices can be drawn for all dimensions.
Their solvers fail with the same error, or have kin results, with the same number of generations,
best point and front.

Kin are the same to the last bit if both kinships are equality. Akinness lets zeros differ in their
signs: that of the genes matters for points on the border, where moving them into the box may change
the sign, and that of the fitness if what is known differs in this way from what is computed. -/
theorem warm_start_matches_cold_start [Kinship R] [Kinship S] {plan : Plan σ}
    {f : Row Float → Row Float} {q : Population.Evaluated Float} {source : Call σ Value}
    (h : plan.Restart R S f q source) :
    (∀ k run run', (plan.warm q).Reached k run → (plan.cold source).Reached k run' →
      run.Kin R S plan.target.bounds plan.settings.popSize run') ∧
    (∀ k, (∃ run, (plan.warm q).Reached k run) ↔ ∃ run', (plan.cold source).Reached k run') ∧
    (plan.target.bounds.dim ≤ 2 ^ 63 → ∀ (_ : Session σ) k, ∃ run, (plan.warm q).Reached k run) ∧
    ∀ session session' : Session σ, session.user = session'.user →
      Matched (Result.Kin R S plan.settings.popSize)
          ((plan.warm q).solve.run (.fresh, session)).1
          ((plan.cold source).solve.run (.fresh, session')).1 ∧
        KinSolvers R S plan.settings.popSize ((plan.warm q).solve.run (.fresh, session)).2
          ((plan.cold source).solve.run (.fresh, session')).2 := by
  have begins := h.begins_kin fun _ _ => True
  have kin := h.kin_evaluator fun _ _ => True
  refine ⟨fun k run run' => kin_of_reached begins kin,
    fun k => ⟨fun ⟨run, reached⟩ => reached_left begins kin reached,
      fun ⟨run', reached⟩ => reached_right begins kin reached⟩,
    fun short session k => ?_, fun session session' users => ?_⟩
  · obtain ⟨run, reached, -⟩ := h.warm_reaches short session k
    exact ⟨run, reached⟩
  · have fresh : Solver.Kin R S plan.settings.popSize .fresh .fresh := ⟨rfl, .nil, .none, rfl⟩
    exact kin_solve h.blind (h.kin_evaluator Eq) (h.begins_kin Eq) _ _ ⟨fresh, users⟩

end Plan

/-- A swarm of two between both ends of the unit interval, with its progress logged. -/
def endsPlan : Plan Unit :=
  { swarmPlan with
    target := .problem bothEnds
    observers := [.progress ⟨1, .int Log.Level.info⟩] }

/-- Both ends themselves. Some of the zeros have a sign, which neither the box nor the objective
gives them. -/
def endsStart : Population.Evaluated Float :=
  ⟨#[#[-0.0], #[1.0]], #[#[-0.0, 1.0], #[1.0, -0.0]], 2⟩

def endsSource : Call Unit Value :=
  ExceptT.mk fun s => (.ok (.list [.list [.float (-0.0)], .list [.float 1.0]]), s)

namespace Plan

theorem endsStart_rated :
    Rows.Kin Akin endsStart.F (endsStart.X.map (bothEnds.fitnessAt bothEndsOf)) := by
  have rated : endsStart.X.map (bothEnds.fitnessAt bothEndsOf) =
      #[bothEnds.fitnessAt bothEndsOf #[-0.0], bothEnds.fitnessAt bothEndsOf #[1.0]] := by
    simp [endsStart]
  rw [rated]
  apply Related.pair
  · exact Related.pair (.inr (by decide +kernel)) (.inr (by decide +kernel))
  · exact Related.pair (.inr (by decide +kernel)) (.inr (by decide +kernel))

theorem endsPlan_restart :
    endsPlan.Restart Akin Akin (bothEnds.fitnessAt bothEndsOf) endsStart endsSource where
  checked := ⟨[("pop_size", .int 2)], rfl⟩
  limit := nofun
  computes := Backend.computes_of_inChunks Strategy.bothEnds_answers Strategy.bothEnds_total rfl
    (Backend.serial_inChunks Strategy.bothEnds_answers)
  respects x x' _ kin := by
    have gene := kin.gene 0
    have other : Akin (1.0 - x.gene 0) (1.0 - x'.gene 0) := Kinship.sub (.refl 1.0) gene
    exact Related.pair (Kinship.mul gene gene) (Kinship.mul other other)
  width := by decide
  declared := by
    rintro _ ⟨⟩
    rfl
  known :=
    { positions := ⟨rfl, by decide⟩
      inside := by decide +kernel
      fitness := endsStart_rated }
  unmoved := Bounds.clipRows_akin (by decide) (by decide +kernel)
  returns := ⟨_, rfl, fun _ => rfl⟩
  blind :=
    { policy := ⟨nofun, nofun⟩
      callback := nofun
      record := nofun
      observers := List.forall_mem_singleton.mpr (Progress.blind _) }

/-- After a thousand generations the swarm that paid for its first evaluations has paid for two more
of them, and is otherwise where the other one is. -/
theorem warm_start_matches_cold_start_ends :
    ∃ run run', (endsPlan.warm endsStart).Reached 1000 run ∧
      (endsPlan.cold endsSource).Reached 1000 run' ∧ run.Kin Akin Akin .unitInterval 2 run' ∧
      run'.nEval = run.nEval + 2 := by
  obtain ⟨kin, reached, far, -⟩ := warm_start_matches_cold_start endsPlan_restart
  obtain ⟨run, ready⟩ := far (by decide) ⟨(), #[]⟩ 1000
  obtain ⟨run', ready'⟩ := (reached 1000).mp ⟨run, ready⟩
  have same := kin 1000 run run' ready ready'
  exact ⟨run, run', ready, ready', same, same.nEval⟩

end Plan

end BoxSearch
