import BoxSearch.Proofs.Solver.Events

/-!
A solver at work does what the events of its schedule do.

The computations of a solver are taken apart into the events that they enact: whatever succeeds or
fails on the way, the session and the history are left as the events leave them.
-/

namespace BoxSearch

variable {σ : Type}

namespace Plan

/-- The solver has the history of the stage, and is not done yet. -/
structure Keeps (solver : Solver) (st : Stage σ) : Prop where
  history : solver.history = st.history
  result : solver.result = none
  releases : solver.releases = 0

/-- Where a stage stands: the run, and what the policy remembers and has said so far. -/
structure Stage.At (st : Stage σ) (run : Run Float Value) (watch : Watch Float)
    (verdicts : List Bool) : Prop where
  run : st.run = run
  watch : st.watch = watch
  verdicts : st.verdicts = verdicts

/-- The computation of a solver does what the events do: it fails as they do, and leaves the session
and the history as they do. -/
def Enacts {β : Type} (plan : Plan σ) (m : Solving σ β) (events : List (Event σ)) (solver : Solver)
    (st : Stage σ) (post : β → Stage σ → Prop) : Prop :=
  match plan.play events st with
  | (.ok _, st') => ∃ b solver', m.run (solver, st.session) = (.ok b, (solver', st'.session)) ∧
      Keeps solver' st' ∧ post b st'
  | (.error e, st') => ∃ solver', m.run (solver, st.session) = (.error e, (solver', st'.session)) ∧
      Keeps solver' st'

section Enacting

theorem run_act {β : Type} (a : Act σ β) (s : Solver × Session σ) :
    (Solving.act a).run s = ((a.run s.2).1, (s.1, (a.run s.2).2)) :=
  rfl

theorem run_onRun {β : Type} (run : Run Float Value) (m : Search σ Float Value β)
    (s : Solver × Session σ) :
    (Solving.onRun run m).run s =
      ((m.run (run, s.2)).1.map (·, (m.run (run, s.2)).2.1), (s.1, (m.run (run, s.2)).2.2)) :=
  rfl

variable {β γ : Type} {plan : Plan σ} {m : Solving σ β} {events : List (Event σ)} {solver : Solver}
  {st : Stage σ} {run : Run Float Value} {watch : Watch Float} {verdicts : List Bool}
  {post : β → Stage σ → Prop}

theorem enacts_pure {b : β} (keeps : Keeps solver st) (holds : post b st) :
    plan.Enacts (pure b) [] solver st post :=
  ⟨b, solver, rfl, keeps, holds⟩

theorem enacts_bind {f : β → Solving σ γ} {rest : List (Event σ)} {post' : γ → Stage σ → Prop}
    (first : plan.Enacts m events solver st post)
    (next : ∀ b solver' st', Keeps solver' st' → post b st' →
      plan.Enacts (f b) rest solver' st' post') :
    plan.Enacts (m >>= f) (events ++ rest) solver st post' := by
  unfold Enacts at first ⊢
  rw [play_append]
  cases played : plan.play events st with
  | mk r st' =>
    rw [played] at first
    cases r with
    | ok _ =>
      obtain ⟨b, solver', ran, keeps, holds⟩ := first
      have after := next b solver' st' keeps holds
      unfold Enacts at after
      simp only [run_bind, ran]
      exact after
    | error e =>
      obtain ⟨solver', ran, keeps⟩ := first
      exact ⟨solver', by rw [run_bind, ran], keeps⟩

/-- A step that is no event and changes at most the phase. -/
theorem enacts_enter (phase : Phase) (keeps : Keeps solver st) (holds : st.At run watch verdicts) :
    plan.Enacts (Solving.enter phase) [] solver st fun _ st' => st'.At run watch verdicts :=
  ⟨(), { solver with phase }, rfl, ⟨keeps.history, keeps.result, keeps.releases⟩, holds⟩

/-- An effect of which the history takes no note. -/
theorem enacts_act {a : Act σ β} {e : Event σ} {note : β → Stage σ → Stage σ}
    (performed : e.perform plan st = st.act a note)
    (quiet : ∀ b st, (note b st).session = st.session ∧ (note b st).history = st.history)
    (keeps : Keeps solver st)
    (holds : ∀ b session, post b (note b { st with session })) :
    plan.Enacts (Solving.act a) [e] solver st post := by
  unfold Enacts
  rw [play, performed, Stage.act, run_act]
  cases acted : a.run st.session with
  | mk r session =>
    cases r with
    | ok b =>
      obtain ⟨sameSession, sameHistory⟩ := quiet b { st with session }
      refine ⟨b, solver, by rw [sameSession], ⟨?_, keeps.result, keeps.releases⟩, holds b session⟩
      exact keeps.history.trans sameHistory.symm
    | error e => exact ⟨solver, rfl, keeps.history, keeps.result, keeps.releases⟩

/-- An effect of which nothing takes note. -/
theorem enacts_told {a : Act σ β} {e : Event σ} (performed : e.perform plan st = st.act a fun _ => id)
    (keeps : Keeps solver st) (holds : st.At run watch verdicts) :
    plan.Enacts (Solving.act a) [e] solver st fun _ st' => st'.At run watch verdicts :=
  enacts_act performed (fun _ _ => ⟨rfl, rfl⟩) keeps
    fun _ _ => ⟨holds.run, holds.watch, holds.verdicts⟩

theorem enacts_onRun {search : Search σ Float Value β}
    (played : plan.play events st = st.search search) (keeps : Keeps solver st)
    (holds : st.At run watch verdicts) :
    plan.Enacts (Solving.onRun run search) events solver st fun b st' =>
      st'.At b.2 watch verdicts := by
  unfold Enacts
  rw [played, Stage.search, run_onRun, ← holds.run]
  cases searched : search.run (st.run, st.session) with
  | mk r after =>
    cases r with
    | ok b =>
      exact ⟨(b, after.1), solver, rfl, ⟨keeps.history, keeps.result, keeps.releases⟩,
        rfl, holds.watch, holds.verdicts⟩
    | error e => exact ⟨solver, rfl, keeps.history, keeps.result, keeps.releases⟩

/-- Everybody of a list is told. -/
theorem enacts_forM {ι : Type} {f : ι → Act σ PUnit} {event : ι → Event σ} (xs : List ι)
    (performed : ∀ x ∈ xs, ∀ st : Stage σ, st.run = run →
      (event x).perform plan st = st.act (f x) fun _ => id)
    (keeps : Keeps solver st) (holds : st.At run watch verdicts) :
    plan.Enacts (xs.forM fun x => Solving.act (f x)) (xs.map event) solver st fun _ st' =>
      st'.At run watch verdicts := by
  induction xs generalizing solver st with
  | nil => exact enacts_pure keeps holds
  | cons x xs ih =>
    have first := enacts_told (performed x List.mem_cons_self st holds.run) keeps holds
    apply enacts_bind first
    intro _ solver' st' keeps' holds'
    apply ih _ keeps' holds'
    intro y hy
    exact performed y (List.mem_cons_of_mem _ hy)

end Enacting

section Computations

variable {β γ δ : Type} {plan : Plan σ} {solver : Solver} {st : Stage σ} {run : Run Float Value}
  {watch : Watch Float} {verdicts : List Bool}

theorem act_bind (a : Act σ β) (f : β → Act σ γ) :
    Solving.act (a >>= f) = Solving.act a >>= fun b => Solving.act (f b) := by
  apply ExceptT.ext
  funext s
  rw [run_bind, run_act, run_act, run_bind]
  cases a.run s.2 with
  | mk r after => cases r <;> rfl

/-- Sums up the generation just completed in the history. -/
def sumUp (plan : Plan σ) (run : Run Float Value) : Solving σ Unit := do
  let snap ← Solving.act (plan.snapshot run run.view)
  Solving.update fun s => { s with history := s.history.push snap }
  Solving.log (generationEvent snap)

/-- Callback, observers and policy look at the generation just completed. -/
def react (plan : Plan σ) (run : Run Float Value) (watch : Watch Float) :
    Solving σ (Bool × Run Float Value × Watch Float) := do
  plan.callback.toList.forM fun f => Solving.act do let _ ← Act.call (f run.view)
  plan.observers.forM fun o => Solving.act (o.onGeneration run.view)
  let (stop, watch) ← Solving.act (plan.policy.stops plan.clock watch run.view)
  return (stop, run, watch)

theorem generation_eq (run : Run Float Value) (watch : Watch Float) :
    plan.generation run watch = (do
      let advanced ← Solving.onRun run (Strategy.generation plan.settings plan.evaluator)
      plan.sumUp advanced.2
      plan.react advanced.2 watch) := by
  unfold generation sumUp react
  simp only [bind_assoc]
  cases plan.callback with
  | none => simp
  | some f => simp

theorem enacts_sumUp (keeps : Keeps solver st) (holds : st.At run watch verdicts) :
    plan.Enacts (plan.sumUp run) [.summarize] solver st
      fun _ st' => st'.At run watch verdicts := by
  obtain ⟨rfl, rfl, rfl⟩ := holds
  unfold Enacts
  rw [play, Event.perform, Stage.act, sumUp, run_bind, run_bind, run_act]
  cases (plan.snapshot st.run st.run.view).run st.session with
  | mk r session =>
    cases r with
    | ok snap =>
      refine ⟨(), { solver with history := solver.history.push snap }, rfl,
        ⟨?_, keeps.result, keeps.releases⟩, rfl, rfl, rfl⟩
      exact congrArg (·.push snap) keeps.history
    | error e => exact ⟨solver, rfl, keeps.history, keeps.result, keeps.releases⟩

theorem enacts_react (keeps : Keeps solver st) (holds : st.At run watch verdicts) :
    plan.Enacts (plan.react run watch)
      (plan.callback.toList.map .callback ++ (plan.observers.map .tell ++ [.ask])) solver st
      fun b st' => st'.At b.2.1 b.2.2 (verdicts ++ [b.1]) := by
  unfold react
  apply enacts_bind (enacts_forM _ (by rintro _ _ st rfl; rfl) keeps holds)
  intro _ solver st keeps holds
  apply enacts_bind (enacts_forM _ (by rintro _ _ st rfl; rfl) keeps holds)
  intro _ solver st keeps ⟨sameRun, sameWatch, sameVerdicts⟩
  subst run watch verdicts
  have asks : plan.Enacts (Solving.act (plan.policy.ruleHolds plan.clock st.watch st.run.view))
      [.ask] solver st fun answer st' => st'.At st.run answer.2
        (st.verdicts ++ [answer.1 || plan.policy.boundReached st.run.view.generation]) :=
    enacts_act rfl (fun _ _ => ⟨rfl, rfl⟩) keeps fun _ _ => ⟨rfl, rfl, rfl⟩
  rw [Policy.stops, act_bind, bind_assoc, ← List.append_nil [Event.ask]]
  apply enacts_bind asks
  intro answer solver st keeps holds
  exact enacts_pure keeps holds

theorem enacts_generation (keeps : Keeps solver st) (holds : st.At run watch verdicts) :
    plan.Enacts (plan.generation run watch) plan.round solver st fun b st' =>
      st'.At b.2.1 b.2.2 (verdicts ++ [b.1]) := by
  have shape : plan.round = [.step, .evaluate, .fold, .complete] ++ ([.summarize] ++
      (plan.callback.toList.map .callback ++ (plan.observers.map .tell ++ [.ask]))) := by
    simp [round, turn]
  rw [shape, generation_eq]
  apply enacts_bind (enacts_onRun (play_advance st) keeps holds)
  intro advanced solver st keeps holds
  apply enacts_bind (enacts_sumUp keeps holds)
  intro _ solver st keeps holds
  exact enacts_react keeps holds

/-- How the generations that start from a stage can end, with so many of them allowed: the last
verdict is to stop, or an event of a generation fails, or none of all the verdicts was to stop. -/
inductive Ends (plan : Plan σ) (fuel : Nat) (st : Stage σ) :
    Except Error (Run Float Value) → Stage σ → Prop
  | stopped {g : Nat} {st' : Stage σ} (within : g < fuel)
    (played : plan.play (plan.rounds (g + 1)) st = (.ok (), st'))
    (verdicts : st'.verdicts = st.verdicts ++ (List.replicate g false ++ [true])) :
    Ends plan fuel st (.ok st'.run) st'
  | failed {g : Nat} {e : Error} {st' : Stage σ} (within : g < fuel)
    (played : plan.play (plan.rounds (g + 1)) st = (.error e, st'))
    (verdicts : st'.verdicts = st.verdicts ++ List.replicate g false) :
    Ends plan fuel st (.error e) st'
  | unfinished {st' : Stage σ} (played : plan.play (plan.rounds fuel) st = (.ok (), st'))
    (verdicts : st'.verdicts = st.verdicts ++ List.replicate fuel false) :
    Ends plan fuel st (.error (.fault .unfinished)) st'

theorem Ends.later {fuel : Nat} {st next : Stage σ} {r : Except Error (Run Float Value)}
    {st' : Stage σ} (passed : plan.play plan.round st = (.ok (), next))
    (verdicts : next.verdicts = st.verdicts ++ [false]) (ends : plan.Ends fuel next r st') :
    plan.Ends (fuel + 1) st r st' := by
  have further (n : Nat) : plan.play (plan.rounds (n + 1)) st = plan.play (plan.rounds n) next := by
    rw [rounds_succ, play_append, passed]
  cases ends with
  | stopped within played more =>
    refine .stopped (Nat.succ_lt_succ within) ((further _).trans played) ?_
    rw [more, verdicts]
    simp [List.replicate_succ]
  | failed within played more =>
    refine .failed (Nat.succ_lt_succ within) ((further _).trans played) ?_
    rw [more, verdicts]
    simp [List.replicate_succ]
  | unfinished played more =>
    refine .unfinished ((further _).trans played) ?_
    rw [more, verdicts]
    simp [List.replicate_succ]

/-- The loop plays rounds until the policy stops it. -/
theorem loop_ends (plan : Plan σ) (fuel : Nat) (keeps : Keeps solver st) (holds : st.At run watch verdicts) :
    ∃ r st' solver',
      (plan.loop fuel run watch).run (solver, st.session) = (r, (solver', st'.session)) ∧
      Keeps solver' st' ∧ plan.Ends fuel st r st' := by
  induction fuel generalizing solver st run watch verdicts with
  | zero => exact ⟨_, st, solver, rfl, keeps, .unfinished rfl (by simp)⟩
  | succ fuel ih =>
    have once : plan.Enacts _ _ _ _ _ := enacts_generation keeps holds
    have first : plan.rounds 1 = plan.round := by simp [rounds]
    unfold Enacts at once
    rw [loop, run_bind]
    cases played : plan.play plan.round st with
    | mk outcome next =>
      rw [played] at once
      cases outcome with
      | error e =>
        obtain ⟨solver', ran, kept⟩ := once
        refine ⟨.error e, next, solver', by rw [ran], kept, ?_⟩
        refine .failed (g := 0) (Nat.succ_pos _) (by rw [first, played]) ?_
        rw [verdicts_of_round_error played]
        simp
      | ok _ =>
        obtain ⟨⟨stop, run', watch'⟩, solver', ran, kept, stands⟩ := once
        have answered : next.verdicts = st.verdicts ++ [stop] := by
          rw [stands.verdicts, holds.verdicts]
        rw [ran]
        cases stop with
        | true =>
          refine ⟨.ok run', next, solver', rfl, kept, ?_⟩
          rw [← show next.run = run' from stands.run]
          exact .stopped (g := 0) (Nat.succ_pos _) (by rw [first, played]) answered
        | false =>
          obtain ⟨r, st', solver'', ran', kept', ends⟩ := ih kept stands
          exact ⟨r, st', solver'', ran', kept', ends.later played answered⟩

end Computations

end Plan

end BoxSearch
