import BoxSearch.Proofs.Run.Effects
import BoxSearch.Solver.Solve

/-!
The events of a run, one after another.

A run is a sequence of events, each of which may fail. Which events there are, and in what order,
does not depend on what they do, apart from how often a round is repeated: that is decided by the
verdicts which the policy gives. `play` performs events in order and stops at the first that fails.
-/

namespace BoxSearch

variable {σ : Type}

namespace Plan

/-- What happens in a run. The caller's functions are named where they are called. -/
inductive Event (σ : Type) where
  | populate
  | evaluate
  | fold
  | prepare
  | startPolicy
  | tellStart (o : Observer σ)
  | step
  | complete
  | summarize
  | callback (f : View Float → Call σ Value)
  | tell (o : Observer σ)
  | ask
  | report
  | tellEnd (o : Observer σ)

/-- What there is between two events. `rulings` are the answers of the rule of the policy so far,
and `verdicts` those of the policy, which also looks at its bound. -/
structure Stage (σ : Type) where
  session : Session σ
  run : Run Float Value
  watch : Watch Float
  history : Array (Snapshot (Best Float))
  rulings : List Bool
  verdicts : List Bool
  result : Option (Result (Best Float))

namespace Stage

variable {β : Type}

/-- Before the first event. -/
def start (plan : Plan σ) (session : Session σ) : Stage σ :=
  ⟨session, plan.start, .fresh, #[], [], [], none⟩

/-- The stage after an effect, whose result is noted if it succeeds. -/
def act (st : Stage σ) (a : Act σ β) (note : β → Stage σ → Stage σ) :
    Except Error Unit × Stage σ :=
  match a.run st.session with
  | (.ok b, session) => (.ok (), note b { st with session })
  | (.error e, session) => (.error e, { st with session })

/-- The stage after work on the run. -/
def search (st : Stage σ) (m : Search σ Float Value β) : Except Error Unit × Stage σ :=
  match m.run (st.run, st.session) with
  | (.ok _, (run, session)) => (.ok (), { st with run, session })
  | (.error e, (run, session)) => (.error e, { st with run, session })

def watched (watch : Watch Float) (st : Stage σ) : Stage σ := { st with watch }

def summed (snap : Snapshot (Best Float)) (st : Stage σ) : Stage σ :=
  { st with history := st.history.push snap }

/-- The stage after an answer of the rule of the policy. -/
def answered (plan : Plan σ) (answer : Bool × Watch Float) (st : Stage σ) : Stage σ :=
  { st with
    watch := answer.2
    rulings := st.rulings ++ [answer.1]
    verdicts := st.verdicts ++ [answer.1 || plan.policy.boundReached st.run.view.generation] }

def reported (result : Result (Best Float)) (st : Stage σ) : Stage σ :=
  { st with result := some result }

end Stage

/-- Log entries about the end of a run whose result is made. -/
def announce (plan : Plan σ) (run : Run Float Value) (result : Result (Best Float)) :
    Act σ Unit := do
  if run.nonFinite != 0 then Act.log (.nonFiniteTotal run.nonFinite)
  Act.log (.finished plan.settings.family.name result.generations.toNat result.nEval.toNat)

/-- What an event does, and whether it succeeds. -/
def Event.perform (plan : Plan σ) (st : Stage σ) : Event σ → Except Error Unit × Stage σ
  | populate => st.search plan.populate
  | evaluate => st.search (Search.evaluateAll plan.evaluator)
  | fold => st.search Search.updateBest
  | prepare => st.search (Strategy.prepare plan.settings)
  | startPolicy =>
    st.act (do
      let watch ← plan.policy.start plan.clock st.run.view
      Act.log (plan.startEvent st.run)
      return watch) Stage.watched
  | tellStart o => st.act (o.onStart (plan.info st.run)) fun _ => id
  | step => st.search (Strategy.step plan.settings plan.evaluator)
  | complete => st.search (Search.update Run.completeGeneration)
  | summarize =>
    st.act (do
      let snap ← plan.snapshot st.run st.run.view
      Act.log (generationEvent snap)
      return snap) Stage.summed
  | callback f => st.act (do let _ ← Act.call (f st.run.view)) fun _ => id
  | tell o => st.act (o.onGeneration st.run.view) fun _ => id
  | ask => st.act (plan.policy.ruleHolds plan.clock st.watch st.run.view) (Stage.answered plan)
  | report =>
    st.act (do
      let result ← MonadExcept.ofExcept (plan.resultOf st.run st.history.toList)
      plan.announce st.run result
      return result) Stage.reported
  | tellEnd o =>
    match st.result with
    | some result => st.act (o.onEnd result.generations result.nEval) fun _ => id
    | none => (.ok (), st)

/-- Performs events one after another, up to the first one that fails. -/
def play (plan : Plan σ) : List (Event σ) → Stage σ → Except Error Unit × Stage σ
  | [], st => (.ok (), st)
  | e :: rest, st =>
    match e.perform plan st with
    | (.ok _, st) => plan.play rest st
    | (.error err, st) => (.error err, st)

/-- From the first population to the first generation. -/
def opening (plan : Plan σ) : List (Event σ) :=
  [.populate, .evaluate, .fold, .prepare, .startPolicy] ++ plan.observers.map .tellStart

/-- One generation up to the question whether to stop. -/
def turn (plan : Plan σ) : List (Event σ) :=
  [.step, .evaluate, .fold, .complete, .summarize] ++
    (plan.callback.toList.map .callback ++ plan.observers.map .tell)

/-- One generation. -/
def round (plan : Plan σ) : List (Event σ) :=
  plan.turn ++ [.ask]

def rounds (plan : Plan σ) (n : Nat) : List (Event σ) :=
  (List.replicate n plan.round).flatten

/-- A run of `n` generations up to its result. -/
def schedule (plan : Plan σ) (n : Nat) : List (Event σ) :=
  plan.opening ++ plan.rounds n ++ [.report]

/-- What happens once there is a result. -/
def closing (plan : Plan σ) : List (Event σ) :=
  plan.observers.map .tellEnd

section Playing

variable {plan : Plan σ}

theorem play_append (first rest : List (Event σ)) (st : Stage σ) :
    plan.play (first ++ rest) st = match plan.play first st with
      | (.ok _, st) => plan.play rest st
      | (.error e, st) => (.error e, st) := by
  induction first generalizing st with
  | nil => rfl
  | cons e first ih =>
    simp only [List.cons_append, play]
    cases performed : e.perform plan st with
    | mk r st' =>
      cases r with
      | ok _ => exact ih st'
      | error err => rfl

theorem Stage.search_bind {β γ : Type} (m : Search σ Float Value β) (k : Search σ Float Value γ)
    (st : Stage σ) :
    st.search (m >>= fun _ => k) = match st.search m with
      | (.ok _, st) => st.search k
      | (.error e, st) => (.error e, st) := by
  simp only [Stage.search, run_bind]
  cases m.run (st.run, st.session) with
  | mk r after => cases r <;> rfl

/-- Events that work on the run one after another are work on the run. -/
theorem play_cons_search {β γ : Type} {e : Event σ} {events : List (Event σ)}
    {m : Search σ Float Value β} {k : Search σ Float Value γ}
    (first : ∀ st, e.perform plan st = st.search m)
    (rest : ∀ st, plan.play events st = st.search k) (st : Stage σ) :
    plan.play (e :: events) st = st.search (m >>= fun _ => k) := by
  rw [play, first, Stage.search_bind]
  cases st.search m with
  | mk r next =>
    cases r with
    | ok _ => exact rest next
    | error err => rfl

theorem play_single_search {β : Type} {e : Event σ} {m : Search σ Float Value β}
    (performed : ∀ st, e.perform plan st = st.search m) (st : Stage σ) :
    plan.play [e] st = st.search m := by
  rw [play, performed]
  cases st.search m with
  | mk r next => cases r <;> rfl

theorem play_begin (st : Stage σ) :
    plan.play [.populate, .evaluate, .fold] st = st.search plan.begin :=
  play_cons_search (fun _ => rfl)
    (play_cons_search (fun _ => rfl) (play_single_search fun _ => rfl)) st

theorem play_advance (st : Stage σ) :
    plan.play [.step, .evaluate, .fold, .complete] st =
      st.search (Strategy.generation plan.settings plan.evaluator) :=
  play_cons_search (fun _ => rfl) (play_cons_search (fun _ => rfl)
    (play_cons_search (fun _ => rfl) (play_single_search fun _ => rfl))) st

theorem rounds_succ (n : Nat) : plan.rounds (n + 1) = plan.round ++ plan.rounds n := by
  simp [rounds, List.replicate_succ]

/-- If events fail, one of them fails after all before it have succeeded, and nothing happens
afterwards. -/
theorem of_play_error {events : List (Event σ)} {st st' : Stage σ} {err : Error}
    (h : plan.play events st = (.error err, st')) :
    ∃ before e after stage, events = before ++ e :: after ∧
      plan.play before st = (.ok (), stage) ∧ e.perform plan stage = (.error err, st') := by
  induction events generalizing st with
  | nil => cases h
  | cons e events ih =>
    rw [play] at h
    cases performed : e.perform plan st with
    | mk r next =>
      rw [performed] at h
      cases r with
      | error err' =>
        cases h
        exact ⟨[], e, events, st, rfl, rfl, performed⟩
      | ok _ =>
        obtain ⟨before, e', after, stage, rfl, passed, failed⟩ := ih h
        refine ⟨e :: before, e', after, stage, rfl, ?_, failed⟩
        rw [play, performed]
        exact passed

section Frames

variable {β γ : Type} {st st' : Stage σ}

theorem Stage.act_cases (a : Act σ β) (note : β → Stage σ → Stage σ) (st : Stage σ) :
    (∃ b session, st.act a note = (.ok (), note b { st with session })) ∨
      ∃ e session, st.act a note = (.error e, { st with session }) := by
  unfold Stage.act
  split
  · exact .inl ⟨_, _, rfl⟩
  · exact .inr ⟨_, _, rfl⟩

theorem Stage.search_cases (m : Search σ Float Value β) (st : Stage σ) :
    ∃ r run session, st.search m = (r, { st with run, session }) := by
  unfold Stage.search
  split <;> exact ⟨_, _, _, rfl⟩

/-- What an event leaves alone: everything if it fails, apart from the run and the session, and
otherwise what neither depends on these nor on the notes that the event takes. -/
theorem perform_same (f : Stage σ → γ) (e : Event σ) (st : Stage σ)
    (blind : ∀ st run session watch result, f { st with run, session, watch, result } = f st)
    (answered : e = .ask → ∀ answer st, f (Stage.answered plan answer st) = f st)
    (summed : e = .summarize → ∀ snap st, f (Stage.summed snap st) = f st) :
    f (e.perform plan st).2 = f st := by
  have act {β : Type} (a : Act σ β) {note : β → Stage σ → Stage σ}
      (quiet : ∀ b st, f (note b st) = f st) : f (st.act a note).2 = f st := by
    rcases Stage.act_cases a note st with ⟨b, session, same⟩ | ⟨err, session, same⟩ <;> rw [same]
    · exact (quiet b _).trans (blind st st.run session st.watch st.result)
    · exact blind st st.run session st.watch st.result
  have search {β : Type} (m : Search σ Float Value β) : f (st.search m).2 = f st := by
    obtain ⟨r, run, session, same⟩ := Stage.search_cases m st
    rw [same]
    exact blind st run session st.watch st.result
  cases e with
  | populate | evaluate | fold | prepare | step | complete => exact search _
  | startPolicy => exact act _ fun watch st => blind st st.run st.session watch st.result
  | tellStart | callback | tell => exact act _ fun _ _ => rfl
  | summarize => exact act _ (summed rfl)
  | ask => exact act _ (answered rfl)
  | report => exact act _ fun result st => blind st st.run st.session st.watch (some result)
  | tellEnd o =>
    cases reported : st.result with
    | none => simp only [Event.perform, reported]
    | some result =>
      simp only [Event.perform, reported]
      exact act _ fun _ _ => rfl

/-- What several events leave alone, also if one of them fails. -/
theorem play_same (f : Stage σ → γ) {events : List (Event σ)} (st : Stage σ)
    (blind : ∀ st run session watch result, f { st with run, session, watch, result } = f st)
    (answered : .ask ∈ events → ∀ answer st, f (Stage.answered plan answer st) = f st)
    (summed : .summarize ∈ events → ∀ snap st, f (Stage.summed snap st) = f st) :
    f (plan.play events st).2 = f st := by
  induction events generalizing st with
  | nil => rfl
  | cons e events ih =>
    have same : f (e.perform plan st).2 = f st :=
      perform_same f e st blind (fun h => answered (h ▸ List.mem_cons_self))
        fun h => summed (h ▸ List.mem_cons_self)
    rw [play]
    cases performed : e.perform plan st with
    | mk r next =>
      rw [performed] at same
      cases r with
      | error err => exact same
      | ok _ =>
        have rest := ih next (fun h => answered (List.mem_cons_of_mem _ h))
          fun h => summed (List.mem_cons_of_mem _ h)
        exact rest.trans same

/-- Only an answer of the policy adds a verdict. -/
theorem play_verdicts {events : List (Event σ)} (others : Event.ask ∉ events) (st : Stage σ) :
    (plan.play events st).2.verdicts = st.verdicts :=
  play_same (·.verdicts) st (fun _ _ _ _ _ => rfl) (fun h => absurd h others) fun _ _ _ => rfl

/-- Only a summary is added to the history. -/
theorem play_unsummed {events : List (Event σ)} (others : Event.summarize ∉ events)
    (st : Stage σ) : (plan.play events st).2.history = st.history :=
  play_same (·.history) st (fun _ _ _ _ _ => rfl) (fun _ _ _ => rfl) fun h => absurd h others

theorem ask_not_mem_turn (plan : Plan σ) : Event.ask ∉ plan.turn := by
  simp [turn]

theorem ask_not_mem_opening (plan : Plan σ) : Event.ask ∉ plan.opening := by
  simp [opening]

/-- An answer of the policy that fails is no answer. -/
theorem verdicts_of_ask_error {err : Error}
    (h : Event.ask.perform plan st = (.error err, st')) : st'.verdicts = st.verdicts := by
  rcases Stage.act_cases (plan.policy.ruleHolds plan.clock st.watch st.run.view)
    (Stage.answered plan) st with ⟨_, _, same⟩ | ⟨_, _, same⟩ <;> rw [Event.perform, same] at h <;>
    cases h
  rfl

/-- A generation that fails adds no verdict. -/
theorem verdicts_of_round_error {err : Error}
    (h : plan.play plan.round st = (.error err, st')) : st'.verdicts = st.verdicts := by
  have same : (plan.play plan.turn st).2.verdicts = st.verdicts :=
    play_verdicts plan.ask_not_mem_turn st
  rw [round, play_append] at h
  cases played : plan.play plan.turn st with
  | mk r next =>
    rw [played] at h same
    cases r with
    | error err' =>
      cases h
      exact same
    | ok _ =>
      simp only [play] at h
      cases asked : Event.ask.perform plan next with
      | mk r last =>
        rw [asked] at h
        cases r with
        | ok _ => cases h
        | error err' =>
          cases h
          exact (verdicts_of_ask_error asked).trans same

def Event.isSummary : Event σ → Bool
  | summarize => true
  | _ => false

/-- An event that fails leaves no summary, and of the others exactly one kind leaves one. -/
theorem perform_history {e : Event σ} {r : Except Error Unit}
    (h : e.perform plan st = (r, st')) :
    st'.history.size = st.history.size + if r.isOk && e.isSummary then 1 else 0 := by
  by_cases summary : e = .summarize
  · subst summary
    rw [Event.perform] at h
    rcases Stage.act_cases (do
      let snap ← plan.snapshot st.run st.run.view
      Act.log (generationEvent snap)
      return snap) Stage.summed st with ⟨snap, session, same⟩ | ⟨err, session, same⟩ <;>
      rw [same] at h <;> cases h
    · exact Array.size_push _
    · rfl
  · have same : (e.perform plan st).2.history = st.history :=
      perform_same (·.history) e st (fun _ _ _ _ _ => rfl) (fun _ _ _ => rfl)
        fun h => absurd h summary
    have other : e.isSummary = false := by
      cases e <;> first | rfl | exact absurd rfl summary
    rw [h] at same
    simpa [other] using congrArg Array.size same

/-- The history grows with every summary. -/
theorem play_history {events : List (Event σ)} (h : plan.play events st = (.ok (), st')) :
    st'.history.size = st.history.size + events.countP Event.isSummary := by
  induction events generalizing st with
  | nil =>
    cases h
    rfl
  | cons e events ih =>
    rw [play] at h
    cases performed : e.perform plan st with
    | mk r next =>
      rw [performed] at h
      cases r with
      | error err => cases h
      | ok _ =>
        have first := perform_history performed
        have rest := ih h
        rw [rest, first, List.countP_cons]
        simp only [Except.isOk, Except.toBool, Bool.true_and]
        omega

end Frames

end Playing

end Plan

end BoxSearch
