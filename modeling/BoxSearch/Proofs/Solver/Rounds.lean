import BoxSearch.Proofs.Solver.Events
import BoxSearch.Proofs.Strategy.Moves

/-!
Generations that are played to their end.

Such a generation completes exactly one more generation of the run, adds one summary of the run to
the history, and asks the policy once. So the number of a generation is the number of the round,
and a policy with a bound has to stop the run in time.
-/

namespace BoxSearch

variable {σ β : Type}

namespace Plan

variable {plan : Plan σ} {st st' : Stage σ}

theorem of_play_append {first rest : List (Event σ)}
    (h : plan.play (first ++ rest) st = (.ok (), st')) :
    ∃ mid, plan.play first st = (.ok (), mid) ∧ plan.play rest mid = (.ok (), st') := by
  rw [play_append] at h
  cases played : plan.play first st with
  | mk r mid =>
    rw [played] at h
    cases r with
    | ok _ => exact ⟨mid, rfl, h⟩
    | error err => cases h

theorem of_play_single {e : Event σ} (h : plan.play [e] st = (.ok (), st')) :
    e.perform plan st = (.ok (), st') := by
  rw [play] at h
  cases performed : e.perform plan st with
  | mk r mid =>
    rw [performed] at h
    cases r with
    | ok _ => exact h
    | error err => cases h

theorem of_search {m : Search σ Float Value β} (h : st.search m = (.ok (), st')) :
    ∃ b, m.run (st.run, st.session) = (.ok b, (st'.run, st'.session)) ∧
      st' = { st with run := st'.run, session := st'.session } := by
  unfold Stage.search at h
  split at h
  case h_1 b run session ran =>
    cases h
    exact ⟨b, ran, rfl⟩
  case h_2 => cases h

theorem of_act {a : Act σ β} {note : β → Stage σ → Stage σ} (h : st.act a note = (.ok (), st')) :
    ∃ b session, a.run st.session = (.ok b, session) ∧ st' = note b { st with session } := by
  unfold Stage.act at h
  split at h
  case h_1 b session ran =>
    cases h
    exact ⟨b, session, ran, rfl⟩
  case h_2 => cases h

/-- Somebody is told something. -/
def Event.isNotice : Event σ → Bool
  | tellStart _ | callback _ | tell _ => true
  | _ => false

theorem play_notices {events : List (Event σ)} (notices : ∀ e ∈ events, e.isNotice = true)
    (h : plan.play events st = (.ok (), st')) : ∃ session, st' = { st with session } := by
  induction events generalizing st with
  | nil =>
    cases h
    exact ⟨_, rfl⟩
  | cons e events ih =>
    rw [← List.singleton_append] at h
    obtain ⟨mid, first, rest⟩ := of_play_append h
    obtain ⟨session, rfl⟩ := ih (fun e he => notices e (List.mem_cons_of_mem _ he)) rest
    have notice := notices e List.mem_cons_self
    have told : ∃ session, mid = { st with session } := by
      cases e with
      | tellStart | callback | tell =>
        obtain ⟨_, session, _, same⟩ := of_act (of_play_single first)
        exact ⟨session, same⟩
      | _ => cases notice
    obtain ⟨_, rfl⟩ := told
    exact ⟨session, rfl⟩

/-- What a generation does that is played to its end. -/
structure Stage.Completes (plan : Plan σ) (holds : Bool) (st st' : Stage σ) : Prop where
  completed : ∃ s s', (Strategy.generation plan.settings plan.evaluator).run (st.run, s) =
    (.ok (), (st'.run, s'))
  summed : ∃ snap s s', (plan.snapshot st'.run st'.run.view).run s = (.ok snap, s') ∧
    st'.history = st.history.push snap
  asked : ∃ watch s s', (plan.policy.ruleHolds plan.clock st.watch st'.run.view).run s =
    (.ok (holds, watch), s')
  rulings : st'.rulings = st.rulings ++ [holds]
  verdicts : st'.verdicts =
    st.verdicts ++ [holds || plan.policy.boundReached st'.run.generation]

theorem of_play_summarize (h : plan.play [.summarize] st = (.ok (), st')) :
    (∃ snap s s', (plan.snapshot st.run st.run.view).run s = (.ok snap, s') ∧
      st'.history = st.history.push snap) ∧
    st'.run = st.run ∧ st'.watch = st.watch ∧ st'.rulings = st.rulings ∧
      st'.verdicts = st.verdicts := by
  obtain ⟨snap, session, summing, rfl⟩ := of_act (of_play_single h)
  obtain ⟨made, s', snapshot, logged⟩ := of_run_bind summing
  obtain ⟨_, _, _, returned⟩ := of_run_bind logged
  cases returned
  exact ⟨⟨_, _, _, snapshot, rfl⟩, rfl, rfl, rfl, rfl⟩

theorem of_play_ask (h : plan.play [.ask] st = (.ok (), st')) : ∃ holds,
    (∃ watch s s', (plan.policy.ruleHolds plan.clock st.watch st.run.view).run s =
      (.ok (holds, watch), s')) ∧
    st'.run = st.run ∧ st'.history = st.history ∧ st'.rulings = st.rulings ++ [holds] ∧
      st'.verdicts = st.verdicts ++ [holds || plan.policy.boundReached st.run.generation] := by
  obtain ⟨⟨holds, watch⟩, session, asked, rfl⟩ := of_act (of_play_single h)
  exact ⟨holds, ⟨watch, _, _, asked⟩, rfl, rfl, rfl, rfl⟩

/-- What a turn does that is played to its end: a generation is completed and summed up, and the
policy is not asked yet. -/
theorem of_play_turn (h : plan.play plan.turn st = (.ok (), st')) :
    (∃ s s', (Strategy.generation plan.settings plan.evaluator).run (st.run, s) =
      (.ok (), (st'.run, s'))) ∧
    (∃ snap s s', (plan.snapshot st'.run st'.run.view).run s = (.ok snap, s') ∧
      st'.history = st.history.push snap) ∧
    st'.watch = st.watch ∧ st'.rulings = st.rulings ∧ st'.verdicts = st.verdicts := by
  have shape : plan.turn = [.step, .evaluate, .fold, .complete] ++ ([.summarize] ++
      (plan.callback.toList.map .callback ++ plan.observers.map .tell)) := by
    simp [turn]
  have notices : ∀ e ∈ plan.callback.toList.map Event.callback ++ plan.observers.map Event.tell,
      e.isNotice = true := by
    intro e he
    simp only [List.mem_append, List.mem_map] at he
    rcases he with ⟨f, _, rfl⟩ | ⟨o, _, rfl⟩ <;> rfl
  rw [shape] at h
  obtain ⟨st₁, advanced, h⟩ := of_play_append h
  obtain ⟨st₂, summed, told⟩ := of_play_append h
  rw [play_advance] at advanced
  obtain ⟨_, completed, same₁⟩ := of_search advanced
  obtain ⟨⟨snap, t, t', snapshot, history⟩, run₂, watch₂, rulings₂, verdicts₂⟩ :=
    of_play_summarize summed
  obtain ⟨_, same₃⟩ := play_notices notices told
  have kept : st₁.watch = st.watch ∧ st₁.history = st.history ∧ st₁.rulings = st.rulings ∧
      st₁.verdicts = st.verdicts := by
    rw [same₁]
    exact ⟨rfl, rfl, rfl, rfl⟩
  have quiet : st'.run = st₂.run ∧ st'.watch = st₂.watch ∧ st'.history = st₂.history ∧
      st'.rulings = st₂.rulings ∧ st'.verdicts = st₂.verdicts := by
    rw [same₃]
    exact ⟨rfl, rfl, rfl, rfl, rfl⟩
  have last : st'.run = st₁.run := by rw [quiet.1, run₂]
  refine ⟨⟨_, _, last ▸ completed⟩, ⟨snap, t, t', last ▸ snapshot, ?_⟩, ?_, ?_, ?_⟩
  · rw [quiet.2.2.1, history, kept.2.1]
  · rw [quiet.2.1, watch₂, kept.1]
  · rw [quiet.2.2.2.1, rulings₂, kept.2.2.1]
  · rw [quiet.2.2.2.2, verdicts₂, kept.2.2.2]

theorem of_play_round (h : plan.play plan.round st = (.ok (), st')) :
    ∃ holds, st.Completes plan holds st' := by
  rw [round] at h
  obtain ⟨mid, turned, asked⟩ := of_play_append h
  obtain ⟨⟨_, _, completed⟩, ⟨snap, t, t', snapshot, history⟩, watched, rulings, verdicts⟩ :=
    of_play_turn turned
  obtain ⟨holds, ⟨watch, u, u', asks⟩, run', history', rulings', verdicts'⟩ := of_play_ask asked
  refine ⟨holds, ⟨_, _, run' ▸ completed⟩, ⟨snap, t, t', run' ▸ snapshot, ?_⟩,
    ⟨watch, u, u', ?_⟩, ?_, ?_⟩
  · rw [history', history]
  · rw [run', ← watched]
    exact asks
  · rw [rulings', rulings]
  · rw [verdicts', verdicts, run']

/-- The stage after `n` generations. The policy was asked once for each of them, and the history sums
each of them up. -/
structure Stage.After (plan : Plan σ) (n : Nat) (st : Stage σ) : Prop where
  generation : st.run.generation = n
  rulings : st.rulings.length = n
  never : plan.policy.rule = .never → st.rulings = List.replicate n false
  verdicts : st.verdicts = st.rulings.mapIdx fun k holds =>
    holds || plan.policy.boundReached ((k : Int) + 1)
  size : st.history.size = n
  numbered : ∀ (k : Nat) (snap : Snapshot (Best Float)), st.history[k]? = some snap → snap.generation = (k : Int) + 1
  ordered : (st.history.toList.map (·.nEval)).Pairwise (· ≤ ·)
  bounded : ∀ snap ∈ st.history.toList, snap.nEval ≤ st.run.nEval
  last : ∀ snap, st.history.back? = some snap →
    ∃ s s', (plan.snapshot st.run st.run.view).run s = (.ok snap, s')

/-- What a summary is made of. -/
theorem of_snapshot {run : Run Float Value} {snap : Snapshot (Best Float)} {s s' : Session σ}
    (h : (plan.snapshot run run.view).run s = (.ok snap, s')) :
    snap.generation = run.generation ∧ snap.nEval = run.nEval ∧ run.bestF = .ok snap.best ∧
      snap.frontSize = ((run.front?.map Front.size).getD 0 : Nat) := by
  obtain ⟨F, _, _, h⟩ := of_run_bind h
  obtain ⟨best, _, found, h⟩ := of_run_bind h
  have best := of_run_ofExcept found
  cases noted : plan.record with
  | none =>
    rw [noted] at h
    cases h
    exact ⟨rfl, rfl, best, rfl⟩
  | some record =>
    rw [noted] at h
    obtain ⟨_, _, _, h⟩ := of_run_bind h
    cases h
    exact ⟨rfl, rfl, best, rfl⟩

/-- One more generation. -/
theorem Stage.After.next {n : Nat} {holds : Bool} (h : st.After plan n)
    (completes : st.Completes plan holds st') : st'.After plan (n + 1) := by
  obtain ⟨s, s', completed⟩ := completes.completed
  obtain ⟨snap, t, t', summed, history⟩ := completes.summed
  have counts : st'.run.generation = st.run.generation + 1 ∧ st.run.nEval ≤ st'.run.nEval :=
    Strategy.generation_counts plan.settings _ _ completed
  obtain ⟨generation, more⟩ := counts
  obtain ⟨number, count, -, -⟩ := of_snapshot summed
  have counted : st'.run.generation = n + 1 := by rw [generation, h.generation]
  refine ⟨counted, ?_, fun never => ?_, ?_, ?_, ?_, ?_, ?_, ?_⟩
  · rw [completes.rulings, List.length_append, h.rulings]
    rfl
  · obtain ⟨watch, u, u', asked⟩ := completes.asked
    have no : holds = false := by
      rw [Policy.ruleHolds, never] at asked
      cases asked
      rfl
    rw [completes.rulings, h.never never, no, List.replicate_succ']
  · rw [completes.verdicts, completes.rulings, h.verdicts, counted, List.mapIdx_append]
    simp [h.rulings]
  · rw [history, Array.size_push, h.size]
  · intro k snap' hk
    rw [history, Array.getElem?_push, h.size] at hk
    split at hk
    case isTrue last =>
      cases hk
      rw [number, counted, last]
      rfl
    case isFalse => exact h.numbered k snap' hk
  · rw [history, Array.toList_push, List.map_append, List.pairwise_append]
    refine ⟨h.ordered, by simp, ?_⟩
    simp only [List.mem_map, List.map_cons, List.map_nil, List.mem_singleton]
    rintro _ ⟨earlier, hearlier, rfl⟩ _ rfl
    have before := h.bounded earlier hearlier
    rw [count]
    omega
  · intro snap' hsnap
    rw [history, Array.toList_push] at hsnap
    rcases List.mem_append.mp hsnap with earlier | last
    · have before := h.bounded snap' earlier
      omega
    · rw [List.mem_singleton.mp last, count]
  · intro snap' hlast
    rw [history, Array.back?_push] at hlast
    cases hlast
    exact ⟨t, t', summed⟩

theorem Stage.After.rounds {m n : Nat} (h : st.After plan m)
    (played : plan.play (plan.rounds n) st = (.ok (), st')) : st'.After plan (m + n) := by
  induction n generalizing m st with
  | zero =>
    cases played
    exact h
  | succ n ih =>
    rw [rounds_succ] at played
    obtain ⟨mid, first, rest⟩ := of_play_append played
    obtain ⟨holds, completes⟩ := of_play_round first
    have further := ih (h.next completes) rest
    rwa [Nat.add_right_comm, Nat.add_assoc] at further

theorem populate_generation (session : Session σ) :
    Search.Ensures plan.populate (plan.start, session) fun _ s' => s'.1.generation = 0 := by
  unfold populate
  cases plan.population with
  | none =>
    simp only [Initial.populate, Search.ensures_bind, Search.ensures_current, Search.ensures_ite,
      Search.ensures_throw]
    refine (Initial.sample_redrawn _).mono fun pool s₁ drawn => ⟨fun _ => trivial, fun _ => ?_⟩
    refine (Search.setPositions_ensures pool none).mono fun _ s₂ moved => ?_
    obtain ⟨streams, drawn⟩ := drawn
    obtain ⟨X, F, stale, moved⟩ := moved
    rw [moved, drawn]
    rfl
  | some q =>
    simp only [Search.ensures_bind, Search.ensures_current, Search.ensures_ofExcept]
    intro p _
    refine (Search.seed_ensures p.X p.F p.width).mono fun _ s' seeded => ?_
    obtain ⟨run, registered, same, -⟩ := seeded
    rw [same]
    cases registered <;> rfl

/-- The first population is that of generation zero. -/
theorem begin_generation (session : Session σ) :
    Search.Ensures plan.begin (plan.start, session) fun _ s' => s'.1.generation = 0 := by
  simp only [begin, Search.ensures_bind]
  refine (populate_generation session).mono fun _ s₁ first => ?_
  refine Search.evaluateAll_moves.mono fun _ s₂ evaluated => ?_
  obtain ⟨_, second⟩ := evaluated
  refine (Search.updateBest_moves plan.evaluator).mono fun _ s₃ third => ?_
  rw [third.generation, second.generation, first]

/-- What an opening does that is played to its end. -/
structure Stage.Opens (plan : Plan σ) (session : Session σ) (st : Stage σ) : Prop where
  ready : ∃ (run : Run Float Value) (s t t' : Session σ),
    plan.begin.run (plan.start, session) = (.ok (), (run, s)) ∧
    (Strategy.prepare plan.settings).run (run, t) = (.ok (), (st.run, t'))
  history : st.history = #[]
  rulings : st.rulings = []
  verdicts : st.verdicts = []
  started : ∃ watch s s', (plan.policy.start plan.clock st.run.view).run s = (.ok watch, s')

theorem of_play_opening {session : Session σ}
    (h : plan.play plan.opening (.start plan session) = (.ok (), st)) :
    st.Opens plan session := by
  have shape : plan.opening = [.populate, .evaluate, .fold] ++ ([.prepare] ++ ([.startPolicy] ++
      plan.observers.map .tellStart)) := by
    simp [opening]
  rw [shape] at h
  obtain ⟨st₁, begun, h⟩ := of_play_append h
  obtain ⟨st₂, prepared, h⟩ := of_play_append h
  obtain ⟨st₃, started, told⟩ := of_play_append h
  rw [play_begin] at begun
  obtain ⟨_, begun, same₁⟩ := of_search begun
  obtain ⟨_, prepared, same₂⟩ := of_search (of_play_single prepared)
  obtain ⟨watch, ses₃, starts, same₃⟩ := of_act (of_play_single started)
  obtain ⟨watch', ses, starts, -⟩ := of_run_bind starts
  obtain ⟨ses₄, same₄⟩ := play_notices (by simp [Event.isNotice]) told
  have empty₁ : st₁.history = #[] ∧ st₁.rulings = [] ∧ st₁.verdicts = [] := by
    rw [same₁]
    exact ⟨rfl, rfl, rfl⟩
  have empty₂ : st₂.history = #[] ∧ st₂.rulings = [] ∧ st₂.verdicts = [] := by
    rw [same₂]
    exact empty₁
  have quiet : st.run = st₂.run ∧ st.history = st₂.history ∧ st.rulings = st₂.rulings ∧
      st.verdicts = st₂.verdicts := by
    rw [same₄, same₃]
    exact ⟨rfl, rfl, rfl, rfl⟩
  obtain ⟨run, history, rulings, verdicts⟩ := quiet
  exact ⟨⟨_, _, _, _, begun, run ▸ prepared⟩, history.trans empty₂.1, rulings.trans empty₂.2.1,
    verdicts.trans empty₂.2.2, watch', _, ses, run ▸ starts⟩

theorem after_opening {session : Session σ}
    (h : plan.play plan.opening (.start plan session) = (.ok (), st)) : st.After plan 0 := by
  obtain ⟨⟨run, s, t, t', begun, prepared⟩, history, rulings, verdicts, -⟩ := of_play_opening h
  have first := begin_generation session _ _ begun
  have second := (Strategy.prepare_counts plan.settings _ _ prepared).generation
  have generation : st.run.generation = 0 := second.trans first
  constructor <;> simp [generation, history, rulings, verdicts]

/-- A policy with a bound says to stop once there are as many generations. -/
theorem stops_in_time {m : Nat} (bounded : plan.policy.maxGenerations = some m) (positive : 1 ≤ m)
    (h : st.After plan m) : st.verdicts ≠ List.replicate m false := by
  intro never
  have inside : m - 1 < st.rulings.length := by
    have length := h.rulings
    omega
  have last : st.verdicts[m - 1]? = some true := by
    rw [h.verdicts, List.getElem?_mapIdx, List.getElem?_eq_getElem inside]
    have reached : (m : Int) ≤ ((m - 1 : Nat) : Int) + 1 := by omega
    simp [Policy.boundReached, bounded, reached]
  rw [never, List.getElem?_replicate] at last
  split at last <;> cases last

end Plan

end BoxSearch
