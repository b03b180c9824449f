import BoxSearch.Proofs.Run.Effects
import BoxSearch.Proofs.Run.Population
import BoxSearch.Proofs.Stopping.Proper
import BoxSearch.Solver.Solve

/-!
The runs that a plan goes through, and what a result tells of them.

A run changes between two generations in one way only, which is the generation itself. So whatever
the callbacks and the observers do, a run in the middle of a solver's work is one that can be
reached by beginning, preparing and completing generations one by one. A result reports the last
of them.
-/

namespace BoxSearch

variable {σ : Type}

namespace Plan

/-- The plan was made of a request. -/
def Accepted (plan : Plan σ) : Prop :=
  ∃ r fresh s s', (ofRequest r fresh).run s = (.ok plan, s')

/-- The runs that a plan goes through: the one that is ready for the first generation, and the one
after each generation. What happens to the session in between does not matter. -/
inductive Reached (plan : Plan σ) : Nat → Run Float Value → Prop
  | ready {run run' : Run Float Value} {s s' t t' : Session σ}
      (begun : plan.begin.run (plan.start, s) = (.ok (), (run, s')))
      (prepared : (Strategy.prepare plan.settings).run (run, t) = (.ok (), (run', t'))) :
      Reached plan 0 run'
  | next {n : Nat} {run run' : Run Float Value} {s s' : Session σ} (reached : Reached plan n run)
      (completed : (Strategy.generation plan.settings plan.evaluator).run (run, s) =
        (.ok (), (run', s'))) :
      Reached plan (n + 1) run'

/-- The history so far: one summary for every generation that was completed. -/
def Recorded (plan : Plan σ) (history : Array (Snapshot (Best Float))) (n : Nat) : Prop :=
  history.size = n ∧ ∀ k snap, history[k]? = some snap → ∃ run s s', plan.Reached (k + 1) run ∧
    (plan.snapshot run run.view).run s = (.ok snap, s')

section Accepted

/-- A population to start from was read from values, and suits the policy. -/
theorem of_populationOf {v : Value} {hasInitializer : Bool} {settings : Settings}
    {target : Target σ} {policy : Policy σ Float} {q : Population.Evaluated Float}
    (h : populationOf v hasInitializer settings target policy = .ok (some q)) :
    ∃ X F, Population.ofValues X F (.int settings.popSize) target.bounds target.nObj = .ok q ∧
      policy.checkObjectives (some q.width) = .ok () := by
  unfold populationOf at h
  split at h
  case h_1 => cases h
  case h_2 =>
    by_cases two : hasInitializer = true
    · rw [if_pos two] at h
      cases h
    rw [if_neg two] at h
    split at h
    case h_1 X F _ =>
      obtain ⟨p, read, h⟩ := of_bind h
      obtain ⟨_, suits, h⟩ := of_bind h
      cases h
      exact ⟨X, F, read, suits⟩
    case h_2 => cases h

private theorem of_run_seeded {β : Type} {source : SeedSource} {fresh : Nat} {f : Nat → Act σ β}
    {b : β} {s s' : Session σ}
    (h : (match source with
      | .settled seed => pure seed >>= f
      | .value v => ofRequest.ofExcept (seedOf fresh v) >>= f).run s = (.ok b, s')) :
    ∃ seed t, (f seed).run t = (.ok b, s') := by
  cases source with
  | settled seed =>
    exact ⟨seed, s, h⟩
  | value v =>
    obtain ⟨seed, t, -, h⟩ := of_run_bind h
    exact ⟨seed, t, h⟩

/-- The parts of a plan come from the parts of the request that it was made of. -/
theorem of_run_ofRequest {r : Request σ} {fresh : Nat} {s s' : Session σ} {plan : Plan σ}
    (h : (ofRequest r fresh).run s = (.ok plan, s')) :
    Policy.ofSource r.stopping = .ok plan.policy ∧
      populationOf r.population plan.initializer.isSome plan.settings plan.target plan.policy =
        .ok plan.population := by
  rw [ofRequest] at h
  obtain ⟨settings, s₁, -, h⟩ := of_run_bind h
  obtain ⟨target, s₂, -, h⟩ := of_run_bind h
  obtain ⟨policy, s₃, stopping, h⟩ := of_run_bind h
  obtain ⟨_, s₄, -, h⟩ := of_run_bind h
  obtain ⟨seed, s₅, h⟩ := of_run_seeded h
  obtain ⟨callback, s₆, -, h⟩ := of_run_bind h
  obtain ⟨record, s₇, -, h⟩ := of_run_bind h
  obtain ⟨initializer, s₈, -, h⟩ := of_run_bind h
  obtain ⟨population, s₉, read, h⟩ := of_run_bind h
  obtain ⟨frontLimit, s₁₀, -, h⟩ := of_run_bind h
  obtain ⟨_, s₁₁, -, h⟩ := of_run_bind h
  obtain ⟨observers, s₁₂, -, h⟩ := of_run_bind h
  obtain ⟨backend, s₁₃, -, h⟩ := of_run_bind h
  cases h
  exact ⟨of_run_ofExcept stopping, of_run_ofExcept read⟩

theorem even_of_accepted {plan : Plan σ} (accepted : plan.Accepted) {q : Population.Evaluated Float}
    (warm : plan.population = some q) : q.Even plan.target.bounds.dim := by
  obtain ⟨r, fresh, s, s', made⟩ := accepted
  have taken := (of_run_ofRequest made).2
  rw [warm] at taken
  obtain ⟨_, _, read, -⟩ := of_populationOf taken
  exact Population.even_of_ofValues read

/-- A population to start from has an objective at least, and as many as are declared. -/
theorem width_of_accepted {plan : Plan σ} (accepted : plan.Accepted)
    {q : Population.Evaluated Float} (warm : plan.population = some q) :
    q.width ≠ 0 ∧ ∀ n, plan.target.nObj = some n → n = (q.width : Int) := by
  obtain ⟨r, fresh, s, s', made⟩ := accepted
  have taken := (of_run_ofRequest made).2
  rw [warm] at taken
  obtain ⟨_, _, read, -⟩ := of_populationOf taken
  exact Population.width_of_ofValues read

/-- The bound on the generations of a plan is positive, provided that this is so for a policy that
was handed in ready made. -/
theorem proper_of_ofRequest {r : Request σ} {fresh : Nat} {s s' : Session σ} {plan : Plan σ}
    (made : (ofRequest r fresh).run s = (.ok plan, s'))
    (ready : ∀ p, r.stopping = .ready p → p.Proper) : plan.policy.Proper :=
  Policy.proper_ofSource ready (of_run_ofRequest made).1

end Accepted

section Reaching

variable {plan : Plan σ} {β : Type} {b : β} {st st' : Solver × Session σ}

theorem of_run_act {a : Act σ β} (h : (Solving.act a).run st = (.ok b, st')) :
    st'.1 = st.1 ∧ a.run st.2 = (.ok b, st'.2) := by
  change ((a.run st.2).1, (st.1, (a.run st.2).2)) = _ at h
  obtain ⟨result, rfl⟩ := Prod.mk.inj h
  exact ⟨rfl, Prod.ext result rfl⟩

theorem of_run_acts {ι : Type} {f : ι → Act σ PUnit} {xs : List ι} {u : PUnit}
    (h : (xs.forM fun x => Solving.act (f x)).run st = (.ok u, st')) : st'.1 = st.1 := by
  induction xs generalizing st with
  | nil =>
    cases h
    rfl
  | cons x xs ih =>
    obtain ⟨_, t, first, rest⟩ := of_run_bind h
    exact (ih rest).trans (of_run_act first).1

theorem of_run_onRun {run run' : Run Float Value} {search : Search σ Float Value β}
    (h : (Solving.onRun run search).run st = (.ok (b, run'), st')) :
    st'.1 = st.1 ∧ search.run (run, st.2) = (.ok b, (run', st'.2)) := by
  cases ran : search.run (run, st.2) with
  | mk r after =>
  have whole : (Solving.onRun run search).run st = (r.map (·, after.1), (st.1, after.2)) := by
    change ((search.run (run, st.2)).1.map (·, (search.run (run, st.2)).2.1),
      (st.1, (search.run (run, st.2)).2.2)) = _
    rw [ran]
  rw [whole] at h
  cases r with
  | error e => cases h
  | ok c =>
    cases h
    exact ⟨rfl, rfl⟩

theorem of_run_generation {run run' : Run Float Value} {watch watch' : Watch Float} {stop : Bool}
    (h : (plan.generation run watch).run st = (.ok (stop, run', watch'), st')) :
    (∃ s s', (Strategy.generation plan.settings plan.evaluator).run (run, s) =
        (.ok (), (run', s'))) ∧
      ∃ snap s s', (plan.snapshot run' run'.view).run s = (.ok snap, s') ∧
        st'.1.history = st.1.history.push snap := by
  rw [generation] at h
  obtain ⟨⟨_, moved⟩, st₁, first, h⟩ := of_run_bind h
  obtain ⟨same₁, completed⟩ := of_run_onRun first
  obtain ⟨snap, st₂, second, h⟩ := of_run_bind h
  obtain ⟨same₂, summed⟩ := of_run_act second
  obtain ⟨_, st₃, third, h⟩ := of_run_bind h
  obtain ⟨_, st₄, fourth, h⟩ := of_run_bind h
  have pushed : st₃.1.history = st₂.1.history.push snap := by
    cases third
    rfl
  -- what is left is the same with and without a callback
  have rest (u : Solver × Session σ) (h : (do
      plan.observers.forM fun o => Solving.act (o.onGeneration moved.view)
      let asked ← Solving.act (plan.policy.stops plan.clock watch moved.view)
      return (asked.1, moved, asked.2) : Solving σ (Bool × Run Float Value × Watch Float)).run u =
        (.ok (stop, run', watch'), st')) : run' = moved ∧ st'.1 = u.1 := by
    obtain ⟨_, v, told, h⟩ := of_run_bind h
    obtain ⟨⟨_, _⟩, w, asked, h⟩ := of_run_bind h
    cases h
    exact ⟨rfl, (of_run_act asked).1.trans (of_run_acts told)⟩
  have told : run' = moved ∧ st'.1 = st₄.1 := by
    cases callback : plan.callback with
    | none =>
      rw [callback] at h
      exact rest _ h
    | some callback' =>
      rw [callback] at h
      obtain ⟨_, t, called, h⟩ := of_run_bind h
      obtain ⟨same, kept⟩ := rest _ h
      exact ⟨same, kept.trans (of_run_act called).1⟩
  obtain ⟨rfl, same⟩ := told
  refine ⟨⟨_, _, completed⟩, snap, _, _, summed, ?_⟩
  rw [same, (of_run_act fourth).1, pushed, same₂, same₁]

theorem of_run_loop {fuel : Nat} {n : Nat} {run run' : Run Float Value} {watch : Watch Float}
    (reached : plan.Reached n run) (recorded : plan.Recorded st.1.history n)
    (h : (plan.loop fuel run watch).run st = (.ok run', st')) :
    ∃ m, plan.Reached m run' ∧ plan.Recorded st'.1.history m := by
  induction fuel generalizing n run watch st with
  | zero => cases h
  | succ fuel ih =>
    rw [loop] at h
    obtain ⟨⟨stop, moved, watch'⟩, t, once, h⟩ := of_run_bind h
    obtain ⟨⟨s, s', completed⟩, snap, u, u', summed, pushed⟩ := of_run_generation once
    have further : plan.Reached (n + 1) moved := .next reached completed
    have kept : plan.Recorded t.1.history (n + 1) := by
      rw [pushed]
      refine ⟨by rw [Array.size_push, recorded.1], fun k snap' hk => ?_⟩
      rw [Array.getElem?_push, recorded.1] at hk
      by_cases last : k = n
      · rw [if_pos last] at hk
        cases hk
        rw [last]
        exact ⟨moved, u, u', further, summed⟩
      · rw [if_neg last] at hk
        exact recorded.2 k snap' hk
    dsimp only at h
    by_cases stops : stop = true
    · rw [if_pos stops] at h
      cases h
      exact ⟨n + 1, further, kept⟩
    · rw [if_neg stops] at h
      exact ih further kept h

theorem of_run_attempt {run : Run Float Value} {result : Result (Best Float)}
    (none : st.1.history = #[]) (h : plan.attempt.run st = (.ok (run, result), st')) :
    ∃ n history, plan.Reached n run ∧ plan.Recorded history n ∧
      plan.resultOf run history.toList = .ok result := by
  rw [attempt] at h
  obtain ⟨⟨_, begun⟩, st₁, first, h⟩ := of_run_bind h
  obtain ⟨same₁, begins⟩ := of_run_onRun first
  obtain ⟨_, st₂, second, h⟩ := of_run_bind h
  obtain ⟨⟨_, ready⟩, st₃, third, h⟩ := of_run_bind h
  obtain ⟨same₃, prepares⟩ := of_run_onRun third
  obtain ⟨watch, st₄, fourth, h⟩ := of_run_bind h
  obtain ⟨_, st₅, fifth, h⟩ := of_run_bind h
  obtain ⟨_, st₆, sixth, h⟩ := of_run_bind h
  obtain ⟨_, st₇, seventh, h⟩ := of_run_bind h
  obtain ⟨last, st₈, eighth, h⟩ := of_run_bind h
  obtain ⟨_, st₉, ninth, h⟩ := of_run_bind h
  obtain ⟨solver, st₁₀, tenth, h⟩ := of_run_bind h
  obtain ⟨reported, st₁₁, eleventh, h⟩ := of_run_bind h
  cases h
  have initialized : st₂.1.history = st₁.1.history := by
    cases second
    rfl
  have running : st₇.1.history = st₆.1.history := by
    cases seventh
    rfl
  have untouched : st₇.1.history = #[] := by
    rw [running, of_run_acts sixth, (of_run_act fifth).1, (of_run_act fourth).1, same₃, initialized,
      same₁, none]
  have recorded : plan.Recorded st₇.1.history 0 := by
    rw [untouched]
    exact ⟨rfl, fun k snap hk => by cases hk⟩
  obtain ⟨m, reached, recorded⟩ := of_run_loop (.ready begins prepares) recorded eighth
  cases ninth
  cases tenth
  exact ⟨m, _, reached, recorded, of_run_ofExcept eleventh⟩

theorem of_run_conclude {run : Run Float Value} {result result' : Result (Best Float)}
    (h : (plan.conclude run result).run st = (.ok result', st')) : result' = result := by
  have rest (u : Solver × Session σ) (h : (do
      Solving.update fun s => { s with result := some result, phase := .resultAvailable }
      Solving.log (.finished plan.settings.family.name result.generations.toNat result.nEval.toNat)
      plan.observers.forM fun o => Solving.act (o.onEnd result.generations result.nEval)
      return result : Solving σ (Result (Best Float))).run u = (.ok result', st')) :
      result' = result := by
    obtain ⟨_, v, _, h⟩ := of_run_bind h
    obtain ⟨_, w, _, h⟩ := of_run_bind h
    obtain ⟨_, x, _, h⟩ := of_run_bind h
    cases h
    rfl
  rw [conclude] at h
  by_cases unranked : (run.nonFinite != 0) = true
  · rw [if_pos unranked] at h
    obtain ⟨_, t, _, h⟩ := of_run_bind h
    exact rest t h
  · rw [if_neg unranked] at h
    exact rest st h

/-- A result tells of runs that the plan went through: its history sums them up one by one, and the
last of them is reported. -/
theorem of_run_solve {result : Result (Best Float)} (none : st.1.history = #[])
    (h : plan.solve.run st = (.ok result, st')) :
    ∃ n run history, plan.Reached n run ∧ plan.Recorded history n ∧
      plan.resultOf run history.toList = .ok result := by
  rw [solve] at h
  obtain ⟨solver, st₁, first, h⟩ := of_run_bind h
  cases first
  by_cases used : (st.1.phase != .uninitialized) = true
  · rw [if_pos used] at h
    obtain ⟨_, _, failed, _⟩ := of_run_bind h
    cases failed
  rw [if_neg used] at h
  obtain ⟨outcome, t, tried, h⟩ := of_run_bind h
  change (Except.ok (plan.attempt.run st).1, (plan.attempt.run st).2) = _ at tried
  obtain ⟨outcomes, _⟩ := Prod.mk.inj tried
  have attempted : plan.attempt.run st = (outcome, (plan.attempt.run st).2) :=
    Prod.ext (Except.ok.inj outcomes) rfl
  cases outcome with
  | error e =>
    obtain ⟨_, _, _, h⟩ := of_run_bind h
    obtain ⟨_, _, _, h⟩ := of_run_bind h
    obtain ⟨_, _, _, h⟩ := of_run_bind h
    obtain ⟨_, _, _, h⟩ := of_run_bind h
    cases h
  | ok reported =>
    obtain ⟨run, result'⟩ := reported
    obtain ⟨_, u, _, concluded⟩ := of_run_bind h
    rw [of_run_conclude concluded]
    obtain ⟨n, history, reached⟩ := of_run_attempt none attempted
    exact ⟨n, run, history, reached⟩

end Reaching

end Plan

end BoxSearch
