import BoxSearch.Proofs.Solver.LifeCycle
import BoxSearch.Proofs.Stopping.Proper
import Mathlib.Order.Bounds.Defs

/-!
When a run stops, and what its result says about it.

The policy is asked once after each generation, and the run stops after the first one for which the
rule says so or the bound is reached. The result is made of the state after this generation, of
which the last summary in the history tells as well.
-/

namespace BoxSearch

variable {σ : Type}

/-- The generations after which a policy stops a run, given the answers of its rule. -/
def Policy.stopsAfter (p : Policy σ Float) (rulings : List Bool) : Set Nat :=
  { n | 1 ≤ n ∧ (rulings[n - 1]? = some true ∨ ∃ m, p.maxGenerations = some m ∧ m ≤ n) }

namespace Result

/-- The three parts of a front have one length, or there is no front. -/
def SameLengths (result : Result (Best Float)) : Prop :=
  (result.frontX = none ∧ result.frontF = none ∧ result.frontProducts = none) ∨
    ∃ X F products, result.frontX = some X ∧ result.frontF = some F ∧
      result.frontProducts = some products ∧ X.shape.head? = some products.length ∧
      F.shape.head? = some products.length

/-- The last entry of the history says what the result says. -/
structure Agrees (result : Result (Best Float)) (snap : Snapshot (Best Float)) : Prop where
  last : result.history.getLast? = some snap
  nEval : snap.nEval = result.nEval
  best : snap.best = result.best
  frontSize : ∃ n : Nat, result.frontSize = .ok n ∧ snap.frontSize = n

end Result

namespace Plan

variable {plan : Plan σ} {st : Stage σ} {result : Result (Best Float)}

/-- The policy says to stop after a generation if its rule does or its bound is reached. -/
theorem stops_iff {rulings : List Bool} {ruling : Bool} {k : Nat}
    (ruled : rulings[k]? = some ruling) :
    (ruling || plan.policy.boundReached ((k : Int) + 1)) = true ↔
      k + 1 ∈ plan.policy.stopsAfter rulings := by
  cases bounded : plan.policy.maxGenerations with
  | none => simp [Policy.stopsAfter, Policy.boundReached, ruled, bounded]
  | some m =>
    have cast : (m : Int) ≤ (k : Int) + 1 ↔ m ≤ k + 1 := by omega
    simp [Policy.stopsAfter, Policy.boundReached, ruled, bounded, cast]

/-- The first verdict to stop comes after the first generation at which the rule or the bound say
so. -/
theorem isLeast_of_verdicts {g : Nat} (after : st.After plan (g + 1))
    (verdicts : st.verdicts = List.replicate g false ++ [true]) :
    IsLeast (plan.policy.stopsAfter st.rulings) (g + 1) := by
  have verdict (k : Nat) (hk : k < g + 1) :
      st.verdicts[k]? = some true ↔ k + 1 ∈ plan.policy.stopsAfter st.rulings := by
    have inside : k < st.rulings.length := by
      rw [after.rulings]
      exact hk
    have ruled := List.getElem?_eq_getElem inside
    rw [after.verdicts, List.getElem?_mapIdx, ruled, ← stops_iff ruled]
    simp
  rw [verdicts] at verdict
  constructor
  · rw [← verdict g (Nat.lt_succ_self g), List.getElem?_append_right (by simp)]
    simp
  · intro n stops
    by_contra early
    have positive := stops.1
    have earlier : n - 1 < g := by omega
    have same : n - 1 + 1 = n := by omega
    rw [← same, ← verdict (n - 1) (by omega), List.getElem?_append_left (by simpa using earlier),
      List.getElem?_replicate, if_pos earlier] at stops
    cases stops

/-- What a result is made of. -/
theorem of_resultOf {run : Run Float Value} {history : List (Snapshot (Best Float))}
    (h : plan.resultOf run history = .ok result) :
    run.bestF = .ok result.best ∧ result.history = history ∧ result.nEval = run.nEval ∧
      result.generations = run.generation ∧
      result.frontX = run.front?.map (fun s => .ofRows s.nVar s.X) ∧
      result.frontF = run.front?.map (fun s => .ofRows s.nObj s.F) ∧
      result.frontProducts = run.front?.map fun s => s.products.toList := by
  unfold resultOf at h
  cases best : run.bestF with
  | error e =>
    rw [best] at h
    cases h
  | ok f =>
    cases point : run.bestX with
    | error e =>
      rw [best, point] at h
      cases h
    | ok x =>
      cases payload : run.bestProduct with
      | error e =>
        rw [best, point, payload] at h
        cases h
      | ok product =>
        rw [best, point, payload] at h
        cases h
        exact ⟨rfl, rfl, rfl, rfl, rfl, rfl, rfl⟩

/-- A front is reported with one entry for each of its members in every part. -/
theorem sameLengths_of_resultOf {run : Run Float Value} {history : List (Snapshot (Best Float))}
    (h : plan.resultOf run history = .ok result) : result.SameLengths := by
  obtain ⟨-, -, -, -, frontX, frontF, products⟩ := of_resultOf h
  cases front : run.front? with
  | none =>
    rw [front] at frontX frontF products
    exact .inl ⟨frontX, frontF, products⟩
  | some s =>
    rw [front] at frontX frontF products
    refine .inr ⟨_, _, _, frontX, frontF, products, ?_, ?_⟩ <;>
      simp [Tensor.ofRows, Front.X, Front.F, Front.products]

/-- The state of which a summary is the last one is the one that the result is made of. -/
theorem agrees_of_resultOf {run : Run Float Value} {history : List (Snapshot (Best Float))}
    {snap : Snapshot (Best Float)} {s s' : Session σ}
    (h : plan.resultOf run history = .ok result) (last : history.getLast? = some snap)
    (summed : (plan.snapshot run run.view).run s = (.ok snap, s')) : result.Agrees snap := by
  obtain ⟨best, same, nEval, -, -, frontF, -⟩ := of_resultOf h
  obtain ⟨-, nEval', best', frontSize⟩ := of_snapshot summed
  refine ⟨same ▸ last, by rw [nEval, nEval'], ?_, ?_⟩
  · rw [best'] at best
    exact Except.ok.inj best
  · refine ⟨_, ?_, frontSize⟩
    rw [Result.frontSize, frontF]
    cases run.front? with
    | none => rfl
    | some s => simp [Tensor.ofRows, Front.F, Front.size]

/-- A result goes with the events of a schedule of `n` generations. The rule of the policy was asked
once for each generation, and the last one is the first at which the rule or the bound say to
stop. -/
structure Accords (plan : Plan σ) (session : Session σ) (result : Result (Best Float)) (n : Nat)
    (st : Stage σ) : Prop where
  played : plan.play (plan.schedule n) (.start plan session) = (.ok (), st)
  generations : result.generations = n
  asked : st.rulings.length = n
  least : IsLeast (plan.policy.stopsAfter st.rulings) n
  never : plan.policy.rule = .never → st.rulings = List.replicate n false
  length : result.history.length = n
  numbered : ∀ (k : Nat) (snap : Snapshot (Best Float)),
    result.history[k]? = some snap → snap.generation = (k : Int) + 1
  ordered : (result.history.map (·.nEval)).Pairwise (· ≤ ·)
  last : ∃ snap, result.Agrees snap
  lengths : result.SameLengths

/-- What a schedule does that is played to its end: the opening, the rounds, and the result that is
made of what they leave. -/
theorem of_play_schedule {session : Session σ} {n : Nat}
    (played : plan.play (plan.schedule n) (.start plan session) = (.ok (), st)) :
    ∃ st₀ st₁ made, plan.play plan.opening (.start plan session) = (.ok (), st₀) ∧
      plan.play (plan.rounds n) st₀ = (.ok (), st₁) ∧
      plan.resultOf st₁.run st₁.history.toList = .ok made ∧ st.result = some made ∧
      st.rulings = st₁.rulings ∧ st.verdicts = st₁.verdicts := by
  obtain ⟨st₁, first, last⟩ := of_play_append played
  obtain ⟨st₀, opened, rounds⟩ := of_play_append first
  obtain ⟨made, session', reports, same⟩ := of_act (of_play_single last)
  have kept : st.result = some made ∧ st.rulings = st₁.rulings ∧ st.verdicts = st₁.verdicts := by
    rw [same]
    exact ⟨rfl, rfl, rfl⟩
  refine ⟨st₀, st₁, made, opened, rounds, ?_, kept⟩
  obtain ⟨found, _, finds, announced⟩ := of_run_bind reports
  obtain ⟨_, _, _, returned⟩ := of_run_bind announced
  rw [of_run_ofExcept finds]
  cases returned
  rfl

/-- A schedule that passes after the first verdict to stop leaves a result that goes with it. -/
theorem accords_of_play {session : Session σ} {g : Nat}
    (played : plan.play (plan.schedule (g + 1)) (.start plan session) = (.ok (), st))
    (verdicts : st.verdicts = List.replicate g false ++ [true])
    (reported : st.result = some result) : plan.Accords session result (g + 1) st := by
  obtain ⟨st₀, st₁, made, opened, rounds, resulted, report, ruled, judged⟩ := of_play_schedule played
  have after := (after_opening opened).rounds rounds
  rw [Nat.zero_add] at after
  rw [report] at reported
  cases reported
  rw [judged] at verdicts
  obtain ⟨-, history, -, generations, -⟩ := of_resultOf resulted
  have size : result.history.length = g + 1 := by
    rw [history, Array.length_toList, after.size]
  refine ⟨played, ?_, ?_, ?_, ?_, size, ?_, ?_, ?_, sameLengths_of_resultOf resulted⟩
  · rw [generations, after.generation]
  · rw [ruled, after.rulings]
  · rw [ruled]
    exact isLeast_of_verdicts after verdicts
  · rw [ruled]
    exact after.never
  · intro k snap hk
    rw [history, Array.getElem?_toList] at hk
    exact after.numbered k snap hk
  · rw [history]
    exact after.ordered
  · have nonempty : st₁.history.back? ≠ none := by
      simp [Array.back?_eq_none_iff, ← Array.size_eq_zero_iff, after.size]
    obtain ⟨snap, back⟩ := Option.ne_none_iff_exists'.mp nonempty
    obtain ⟨s, s', summed⟩ := after.last snap back
    refine ⟨snap, agrees_of_resultOf resulted ?_ summed⟩
    rw [Array.getLast?_toList, back]

/-- The events of a solver that is asked to solve are those of a schedule. With a bound on the
number of generations there are at most as many of them. -/
theorem play_of_course {session session' : Session σ} {solver : Solver} {m : Nat}
    {answer : Except Error (Result (Best Float))}
    (course : plan.Course session answer solver session')
    (bounded : plan.policy.maxGenerations = some m) (positive : 1 ≤ m) :
    ∃ n r st, 1 ≤ n ∧ n ≤ m ∧ plan.play (plan.schedule n) (.start plan session) = (r, st) ∧
      solver.history = st.history ∧ (∀ e, r = .error e → answer = .error e) ∧
      (r = .ok () → ∃ result, solver.outcome = .ok result) := by
  have fuel : plan.fuel = m := by rw [fuel, bounded, Option.getD_some]
  cases course with
  | @finished g st _ result _ within played =>
    refine ⟨g + 1, .ok (), st, by omega, by omega, played, rfl, ?_, fun _ => ⟨result, rfl⟩⟩
    intro e failed
    cases failed
  | @failed g before after e st st' err within scheduled passed failed =>
    have played : plan.play (plan.schedule (g + 1)) (.start plan session) = (.error err, st') := by
      rw [← scheduled, play_append, passed]
      simp only [play, failed]
    refine ⟨g + 1, .error err, st', by omega, by omega, played, rfl, ?_, ?_⟩
    · intro e same
      cases same
      rfl
    · intro passes
      cases passes
  | endless boundless =>
    have none := boundless m bounded
    omega

/-- Only a schedule that passes makes a solver answer with a result. -/
theorem of_course_ok {session session' : Session σ} {solver : Solver}
    (course : plan.Course session (.ok result) solver session') :
    ∃ g st, g < plan.fuel ∧
      plan.play (plan.schedule (g + 1)) (.start plan session) = (.ok (), st) ∧
      st.verdicts = List.replicate g false ++ [true] ∧ st.result = some result := by
  generalize answered : (Except.ok result : Except Error (Result (Best Float))) = answer at course
  cases course with
  | @finished g st _ made told within played verdicts _ reported =>
    have same : made = result := by
      cases told with
      | ok _ => exact (Except.ok.inj answered).symm
      | error e => cases answered
    subst same
    exact ⟨g, st, within, played, verdicts, reported⟩
  | failed => cases answered
  | endless => cases answered

theorem accords_of_course {session session' : Session σ} {solver : Solver}
    (course : plan.Course session (.ok result) solver session') :
    ∃ g st, g < plan.fuel ∧ plan.Accords session result (g + 1) st := by
  obtain ⟨g, st, within, played, verdicts, reported⟩ := of_course_ok course
  exact ⟨g, st, within, accords_of_play played verdicts reported⟩

/-- A run stops after the first generation at which the rule of its policy or the bound say so. The
loop of a run with a bound always ends, after so many generations at most, and after exactly as many
if nothing else stops the run. A result goes with the history: there is one summary for each
generation, numbered from one, with evaluations that only add up, and the last one says what the
result says. -/
theorem run_stops_in_time (plan : Plan σ) (session : Session σ) :
    (∀ m, plan.policy.Proper → plan.policy.maxGenerations = some m →
      ∃ n r st, 1 ≤ n ∧ n ≤ m ∧ plan.play (plan.schedule n) (.start plan session) = (r, st) ∧
        (plan.solve.run (.fresh, session)).2.1.history = st.history ∧
        (∀ e, r = .error e → (plan.solve.run (.fresh, session)).1 = .error e) ∧
        (r = .ok () → ∃ result, (plan.solve.run (.fresh, session)).2.1.outcome = .ok result)) ∧
    ∀ result, (plan.solve.run (.fresh, session)).1 = .ok result →
      (∃ n st, plan.Accords session result n st) ∧
      ∀ m, plan.policy.maxGenerations = some m →
        result.generations ≤ m ∧ (plan.policy.rule = .never → result.generations = m) := by
  obtain ⟨answer, solver, session', solves, course⟩ := plan.solve_course session
  rw [solves]
  refine ⟨fun m proper bounded => play_of_course course bounded (proper m bounded), ?_⟩
  intro result answered
  have answered : answer = .ok result := answered
  rw [answered] at course
  obtain ⟨g, st, within, accords⟩ := accords_of_course course
  refine ⟨⟨g + 1, st, accords⟩, fun m bounded => ?_⟩
  have fuel : plan.fuel = m := by rw [Plan.fuel, bounded, Option.getD_some]
  have generations := accords.generations
  refine ⟨by omega, fun never => ?_⟩
  obtain ⟨-, ruled | ⟨m', bounded', reached⟩⟩ := accords.least.1
  · rw [accords.never never, List.getElem?_replicate] at ruled
    split at ruled <;> cases ruled
  · rw [bounded] at bounded'
    cases bounded'
    omega

/-- The bound of three generations is all that stops three fireflies. -/
theorem run_stops_in_time_threeRounds :
    (∃ n r st, n ≤ 3 ∧ threeRoundsPlan.play (threeRoundsPlan.schedule n)
        (.start threeRoundsPlan ⟨(), #[]⟩) = (r, st) ∧
      (threeRoundsPlan.solve.run (.fresh, ⟨(), #[]⟩)).2.1.history = st.history) ∧
    ∃ result st, (threeRoundsPlan.solve.run (.fresh, ⟨(), #[]⟩)).1 = .ok result ∧
      result.history.length = 3 ∧ threeRoundsPlan.Accords ⟨(), #[]⟩ result 3 st := by
  have proper : threeRoundsPlan.policy.Proper := by
    rintro m ⟨⟩
    decide
  obtain ⟨result, solved⟩ := threeRoundsPlan_solves
  obtain ⟨ends, results⟩ := run_stops_in_time threeRoundsPlan ⟨(), #[]⟩
  obtain ⟨n, r, st, -, within, played, history, -⟩ := ends 3 proper rfl
  obtain ⟨⟨count, st', accords⟩, bounded⟩ := results result solved
  have three : result.generations = 3 := (bounded 3 rfl).2 rfl
  have same : count = 3 := by
    have generations := accords.generations
    omega
  subst same
  exact ⟨⟨n, r, st, within, played, history⟩, result, st', solved, accords.length, accords⟩

end Plan

end BoxSearch
