import BoxSearch.Proofs.Solver.Budget
import BoxSearch.Proofs.Solver.Trail
import BoxSearch.Proofs.Strategy.Offers
import BoxSearch.Proofs.Strategy.Trials

/-!
The best point of a run with several objectives.

It is the representative of the front, the member with the smallest sum of objectives. From one
generation to the next this sum does not grow, unless a full front gives up its representative.
-/

namespace BoxSearch

open Search

variable {σ : Type}

/-- With several objectives the tracker is a front without members at first. -/
theorem Tracker.of_start {P : Type} {dim width : Nat} {limit : Value} {t : Tracker Float P}
    (several : width ≠ 1) (h : Tracker.start dim width limit = .ok t) :
    ∃ l, Front.limitOf limit = .ok l ∧ t = .several (.empty dim width l) := by
  rw [start, if_neg (by simpa using several)] at h
  exact (of_map h).imp fun l found => ⟨found.1, found.2.symm⟩

theorem Run.tracker_of_front? {P : Type} {run : Run Float P} {front : Front Float P}
    (h : run.front? = some front) : run.tracker = some (.several front) := by
  cases held : run.tracker with
  | none => simp [Run.front?, held] at h
  | some t => cases t <;> simp_all [Run.front?, Tracker.front?]

/-- The sum of all objectives of a best point. -/
def Best.sum : Best Float → ℚ
  | .number a => Binary.value a
  | .vector f => Row.sum f
  | .other => 0

namespace Search

variable {P : Type} {evaluator : Evaluator σ Float P} {s : Run Float P × Session σ}

/-- What is evaluated first waits behind what was taken over, so that the tracker will have been
shown all that waits and nothing else. -/
theorem evaluateAll_tracked (tracked : Run.Tracked s.1.waiting s.1)
    (some : s.1.waiting ≠ [] ∨ s.1.stalePlaces ≠ []) :
    Ensures (evaluateAll evaluator) s fun _ s' =>
      Run.Tracked s'.1.waiting s'.1 ∧ s'.1.frontLimit = s.1.frontLimit ∧ s'.1.waiting ≠ [] := by
  refine evaluateAll_assessed.mono fun _ s₂ outcome => ?_
  rcases outcome with ⟨fresh, same⟩ | ⟨F, answers, s₁, assessed, settled⟩
  · rw [same]
    exact ⟨tracked, rfl, some.resolve_right fun stale => stale fresh⟩
  have settles : Run.Moves evaluator s₁ [] s₂ := Run.moves_of_repositions ⟨_, _, _, settled⟩
  have accounts := (assessed.moves.trans settles).accounts
  rw [List.append_nil] at accounts
  have waiting : s₂.1.waiting = s.1.waiting ++ answers := by
    rw [settled, ← assessed.waiting]
    rfl
  rw [waiting]
  refine ⟨accounts.tracked _ tracked, accounts.frontLimit, fun nothing => ?_⟩
  obtain ⟨idle, none⟩ := List.append_eq_nil_iff.mp nothing
  have stale := some.resolve_left fun waits => waits idle
  have count : answers.length = F.size := by simpa using congrArg List.length assessed.answers
  have rows : (staleRows s.1).size = s.1.stalePlaces.length := by simp [staleRows]
  rw [none, assessed.size, rows] at count
  exact stale (List.eq_nil_of_length_eq_zero count.symm)

end Search

/-- Fitness that can be added up without rounding wherever the objective answers. -/
theorem Backend.exact_of_answers {backend : Backend σ} {p : Problem σ}
    {g : Row Float → Except Raised Value} {w : Nat} (answers : p.Answers g)
    (exact : ∀ x raw product, p.rated g x = .ok (raw, product) → raw.Exact w)
    (serially : backend.ReturnsSerial (.problem p)) :
    Evaluator.Honest (fun _ f _ => f.Exact w) (backend.evaluate (.problem p)) := by
  intro rows ses block ses' width raw filled evaluated shaped
  obtain ⟨size, rated⟩ :=
    honest_of_returnsSerial answers serially False rows ses block ses' width raw filled evaluated
      shaped
  refine ⟨size, fun k inside => ?_⟩
  obtain ⟨same, raw', product, answered, ranked, -⟩ := rated k inside
  have sums := exact _ _ _ answered
  rw [sums.map_ranked] at ranked
  rw [ranked]
  exact ⟨same, sums⟩

namespace Plan

variable {plan : Plan σ} {w n : Nat} {run : Run Float Value}

/-- The front has the limit that the plan asks for. -/
theorem limit_start {limit : Option Nat} (h : Front.limitOf plan.start.frontLimit = .ok limit) :
    limit = plan.frontLimit ∧ ∀ l, limit = some l → 0 < l := by
  refine ⟨?_, fun l limited => Front.roomy_of_limitOf (limited ▸ h)⟩
  cases asked : plan.frontLimit with
  | none =>
    have absent : plan.start.frontLimit = .absent := by simp [start, Run.start, asked]
    rw [absent] at h
    cases h
    rfl
  | some m =>
    have given : plan.start.frontLimit = .int m := by simp [start, Run.start, asked]
    rw [given] at h
    rcases Nat.eq_zero_or_pos m with rfl | positive
    · cases h
    · rw [Front.limitOf_nat positive] at h
      cases h
      rfl

/-- A plan that was accepted, with several objectives. Whatever is evaluated or taken over can be
added up without rounding. -/
structure Several (plan : Plan σ) (w : Nat) : Prop where
  accepted : plan.Accepted
  checked : plan.settings.Checked
  objectives : 2 ≤ w
  evaluator : plan.evaluator.Honest fun _ f _ => f.Exact w
  population : ∀ q, plan.population = some q →
    ∀ i < q.X.size, Row.Exact w ((q.F.row i).map Fitness.ranked)

theorem Several.warm (several : plan.Several w) (q : Population.Evaluated Float)
    (h : plan.population = some q) : q.Even plan.target.bounds.dim ∧
      ∀ i < q.X.size, Row.Exact w ((q.F.row i).map Fitness.ranked) :=
  ⟨even_of_accepted several.accepted h, several.population q h⟩

/-- After the population is there, all that was taken over waits, or all is stale. -/
theorem Several.populate_tracked (several : plan.Several w) (s : Session σ) :
    Ensures plan.populate (plan.start, s) fun _ s' => Run.Tracked s'.1.waiting s'.1 ∧
      s'.1.frontLimit = plan.start.frontLimit ∧
        (s'.1.waiting ≠ [] ∨ s'.1.stalePlaces ≠ []) := by
  have large : plan.settings.popSize ≠ 0 := by
    have two := several.checked.two_le_popSize
    omega
  cases population : plan.population with
  | none =>
    simp only [populate, population]
    refine ((Run.populate_accounts _).and (Opening.populate_sampled _ rfl)).mono
      fun _ s' outcome => ?_
    obtain ⟨accounts, sampled, -, limit⟩ := outcome
    have waiting : s'.1.waiting = [] := by simp [Run.waiting, sampled.idle]
    refine ⟨waiting ▸ accounts.tracked [] Run.tracked_start, limit, .inr ?_⟩
    rw [sampled.stale]
    simpa using large
  | some q =>
    simp only [populate, population, ensures_bind, ensures_current, ensures_ofExcept]
    intro q' passed
    obtain ⟨rfl, sizeX, sizeF⟩ :=
      Population.check_ofRows (several.warm q population).1 passed
    refine ((seed_ensures q'.X q'.F q'.width).and
      (Run.seed_accounts (sizeF.trans sizeX.symm))).mono fun _ s' outcome => ?_
    obtain ⟨⟨run, registered, taken, -⟩, accounts⟩ := outcome
    have idle : run.pending = #[] := by cases registered <;> rfl
    have waiting : s'.1.waiting = Batch.members ⟨q'.X, Fitness.rankedRows q'.F, none⟩ := by
      rw [taken]
      simp [Run.waiting, idle]
    rw [waiting]
    refine ⟨accounts.tracked [] Run.tracked_start, accounts.frontLimit, .inl ?_⟩
    have popSize : plan.start.popSize ≠ 0 := large
    simpa [Batch.members, sizeX] using popSize

/-- Between two generations nothing waits, and the front has members that can be added up. -/
structure Gathered (plan : Plan σ) (w : Nat) (run : Run Float Value) (front : Front Float Value) :
    Prop where
  tracked : run.tracker = some (.several front)
  idle : run.pending = #[]
  tidy : front.Tidy w
  nonempty : 0 < front.size
  limit : front.limit = plan.frontLimit

/-- The best point is the representative. -/
theorem Gathered.best {front : Front Float Value} (h : plan.Gathered w run front) :
    ∃ r, front.representative = .ok r ∧ run.bestF = .ok (.vector r.f) := by
  obtain ⟨r, chosen⟩ := Front.exists_representative h.nonempty
  exact ⟨r, chosen, by simp [Run.bestF, Run.front?, h.tracked, Tracker.front?, chosen, Except.map]⟩

/-- The fold of all that waits makes the front, provided that it has been shown nothing before. -/
theorem Several.gathered_fold (several : plan.Several w) {s s' : Run Float Value × Session σ}
    (faithful : s.1.Faithful fun _ f _ => f.Exact w) (tracked : Run.Tracked s.1.waiting s.1)
    (limit : s.1.frontLimit = plan.start.frontLimit) (filled : s.1.waiting ≠ [])
    (folded : updateBest.run s = (.ok (), s')) : ∃ front, plan.Gathered w s'.1 front := by
  have changed := (updateBest_ensures _ _ folded).1
  have among : ∀ m ∈ s.1.waiting, ∃ b ∈ s.1.pending, m ∈ b.members := by
    intro m hm
    obtain ⟨b, hb, inside⟩ := List.mem_flatMap.mp hm
    exact ⟨b, Array.mem_toList_iff.mp hb, inside⟩
  have exact : ∀ m ∈ s.1.waiting, m.f.Exact w := by
    intro m hm
    obtain ⟨b, hb, inside⟩ := among m hm
    exact faithful.backed.waiting b hb m inside
  cases tracked with
  | none _ nothing => exact absurd nothing filled
  | some tracker fresh width held objectives number start shown =>
    -- the number of objectives that the first evaluation showed is that of the points
    have same : width = w := by
      obtain ⟨width', objectives', -, widths⟩ := faithful.backed.width tracker held
      obtain ⟨m, hm⟩ := List.exists_mem_of_ne_nil _ filled
      obtain ⟨b, hb, inside⟩ := among m hm
      have size := widths b hb m inside
      rw [objectives] at objectives'
      rw [(exact m hm).size] at size
      have equal := Option.some.inj objectives'
      omega
    subst same
    have two := several.objectives
    obtain ⟨l, read, rfl⟩ := Tracker.of_start (by omega) start
    rw [limit] at read
    obtain ⟨asked, roomy⟩ := limit_start read
    rw [Tracker.foldl_take_front] at shown
    let blank : Front Float Value := .empty s.1.dim width l
    have tidy : blank.Tidy width := Front.tidy_empty roomy
    refine ⟨s.1.waiting.foldl Front.take blank, ?_, ?_, Front.tidy_foldl tidy exact,
      Front.nonempty_foldl_take tidy.roomy (.inr filled), ?_⟩
    · rw [changed]
      exact (congrArg (Option.map _) held).trans (congrArg some shown)
    · rw [changed]
    · rw [Front.limit_foldl_take]
      exact asked

theorem Several.gathered_opening (several : plan.Several w) (s : Session σ) :
    Ensures plan.begin (plan.start, s) fun _ s' => ∃ front, plan.Gathered w s'.1 front := by
  simp only [begin, ensures_bind]
  refine ((populate_faithful (R := fun _ f _ => f.Exact w) s several.warm).and
    (several.populate_tracked s)).mono fun _ s₁ populated => ?_
  obtain ⟨faithful₁, tracked₁, limit₁, filled₁⟩ := populated
  refine ((evaluateAll_faithful several.evaluator faithful₁).and
    (evaluateAll_tracked tracked₁ filled₁)).mono fun _ s₂ evaluated => ?_
  obtain ⟨⟨faithful₂, -⟩, tracked₂, limit₂, filled₂⟩ := evaluated
  intro _ s₃ folded
  exact several.gathered_fold faithful₂ tracked₂ (limit₂.trans limit₁) filled₂ folded

/-- In a generation points are offered to the front, and it is ready for the next one. -/
theorem Gathered.generation (several : plan.Several w) {front : Front Float Value}
    (h : plan.Gathered w run front) (s : Session σ) :
    Ensures (Strategy.generation plan.settings plan.evaluator) (run, s) fun _ s' =>
      ∃ start points, (start = front ∨ start = front.measured) ∧
        run.Offers plan.evaluator start points s'.1 ∧ start.Tidy w ∧ (∀ m ∈ points, m.f.Exact w) ∧
        plan.Gathered w s'.1 (points.foldl Front.take start) := by
  refine (Strategy.generation_offers plan.settings (s := (run, s)) h.tracked h.idle).mono
    fun _ s' outcome => ?_
  obtain ⟨start, points, begins, offers⟩ := outcome
  have exact : ∀ m ∈ points, m.f.Exact w := offers.honest _ several.evaluator
  have ready : start.Tidy w ∧ 0 < start.size ∧ start.limit = front.limit := by
    rcases begins with rfl | rfl
    · exact ⟨h.tidy, h.nonempty, rfl⟩
    · exact ⟨h.tidy.measured, h.nonempty, rfl⟩
  obtain ⟨tidy, nonempty, limit⟩ := ready
  refine ⟨start, points, begins, offers, tidy, exact, offers.tracked, offers.idle,
    Front.tidy_foldl tidy exact, Front.nonempty_foldl_take tidy.roomy (.inl nonempty), ?_⟩
  rw [Front.limit_foldl_take, limit, h.limit]

theorem Several.gathered (several : plan.Several w) (reached : plan.Reached n run) :
    ∃ front, plan.Gathered w run front := by
  induction reached with
  | @ready run run' s s' t t' begun prepared =>
    obtain ⟨front, tracked, idle, tidy, nonempty, limit⟩ := several.gathered_opening s _ _ begun
    have kept := Strategy.prepare_tracker plan.settings _ _ prepared
    have quiet := (Strategy.prepare_counts plan.settings _ _ prepared).pending
    exact ⟨front, kept.trans tracked, quiet.trans idle, tidy, nonempty, limit⟩
  | @next n run run' s s' _ completed ih =>
    obtain ⟨front, gathered⟩ := ih
    obtain ⟨start, points, -, -, -, -, next⟩ := gathered.generation several s _ _ completed
    exact ⟨_, next⟩

/-- A generation improves on the best sum or keeps it, unless a full front gives up its
representative. -/
theorem Gathered.descends (several : plan.Several w) {front : Front Float Value}
    (h : plan.Gathered w run front) {r : Member Float Value} (chosen : front.representative = .ok r)
    (s : Session σ) :
    Ensures (Strategy.generation plan.settings plan.evaluator) (run, s) fun _ s' =>
      ∃ (start : Front Float Value) (points : List (Member Float Value)) (r' : Member Float Value),
        (start = front ∨ start = front.measured) ∧ run.Offers plan.evaluator start points s'.1 ∧
        s'.1.bestF = .ok (.vector r'.f) ∧
        (r'.f.sum ≤ r.f.sum ∨ ∃ before m after, points = before ++ m :: after ∧
          (before.foldl Front.take start).Forfeits m) := by
  refine (h.generation several s).mono fun _ s' outcome => ?_
  obtain ⟨start, points, begins, offers, tidy, exact, gathered⟩ := outcome
  obtain ⟨r', chosen', best'⟩ := gathered.best
  have chosen₀ : start.representative = .ok r := by
    rcases begins with rfl | rfl <;> exact chosen
  refine ⟨start, points, r', begins, offers, best', ?_⟩
  refine (Front.representative_foldl tidy exact chosen₀).imp_left fun descends => ?_
  obtain ⟨r'', chosen'', le⟩ := descends
  rw [chosen'] at chosen''
  cases chosen''
  exact le

/-- Without a limit, or with room for a single member, the best sum never grows. -/
theorem Gathered.descends_narrow (several : plan.Several w)
    (narrow : ∀ limit, plan.frontLimit = some limit → limit ≤ 1) {front : Front Float Value}
    (h : plan.Gathered w run front) {best : Best Float} (reported : run.bestF = .ok best)
    (s : Session σ) :
    Ensures (Strategy.generation plan.settings plan.evaluator) (run, s) fun _ s' =>
      ∃ best', s'.1.bestF = .ok best' ∧ best'.sum ≤ best.sum := by
  obtain ⟨r, chosen, best₀⟩ := h.best
  rw [best₀] at reported
  cases reported
  refine (h.descends several chosen s).mono fun _ s' outcome => ?_
  obtain ⟨start, points, r', begins, offers, best', le | ⟨before, m, after, -, forfeits⟩⟩ := outcome
  · exact ⟨_, best', le⟩
  · obtain ⟨limit, _, _, limited, large, -⟩ := forfeits
    have same : start.limit = front.limit := by rcases begins with rfl | rfl <;> rfl
    rw [Front.limit_foldl_take, same, h.limit] at limited
    have small := narrow limit limited
    omega

/-- The sums that a history reports, and the one at its end. -/
theorem Trail.descends (several : plan.Several w)
    (narrow : ∀ limit, plan.frontLimit = some limit → limit ≤ 1)
    {history : List (Snapshot (Best Float))} (trail : plan.Trail history run) :
    (history.map (·.best.sum)).Pairwise (· ≥ ·) ∧
      ∀ best, run.bestF = .ok best → ∀ snap ∈ history, best.sum ≤ snap.best.sum := by
  induction trail with
  | ready => exact ⟨.nil, nofun⟩
  | @next history run run' snap s s' t t' before completed summed ih =>
    obtain ⟨ordered, least⟩ := ih
    obtain ⟨front, gathered⟩ := several.gathered before.reached
    obtain ⟨r, -, best⟩ := gathered.best
    obtain ⟨best', reported, le⟩ :=
      gathered.descends_narrow several narrow best s _ _ completed
    have below : ∀ snap ∈ history, best'.sum ≤ snap.best.sum :=
      fun snap among => le.trans (least _ best snap among)
    obtain ⟨-, -, told, -⟩ := of_snapshot summed
    rw [reported] at told
    cases told
    constructor
    · rw [List.map_append, List.pairwise_append]
      refine ⟨ordered, List.pairwise_singleton _ _, ?_⟩
      simpa using below
    · intro best among snap' hsnap
      rw [reported] at among
      cases among
      rcases List.mem_append.mp hsnap with earlier | last
      · exact below snap' earlier
      · rw [List.mem_singleton.mp last]

/-- The next generation of a steady plan succeeds and is summed up. -/
theorem Steady.trail_next {p : Problem σ} {g : Row Float → Except Raised Value}
    (steady : plan.Steady p g w) (several : plan.Several w) (silent : plan.record = none)
    {history : List (Snapshot (Best Float))} (trail : plan.Trail history run) (s : Session σ) :
    ∃ snap run' s', (Strategy.generation plan.settings plan.evaluator).run (run, s) =
        (.ok (), (run', s')) ∧
      plan.Trail (history ++ [snap]) run' ∧ run'.bestF = .ok snap.best := by
  obtain ⟨ledger, chronicled⟩ := trail.reached.chronicled
  have underway := (steady.counted chronicled).underway
  obtain ⟨_, ⟨run', s'⟩, completed, underway'⟩ :=
    exists_of_ends (steady.proceeds (s := (run, s)) underway)
  obtain ⟨F, known, -⟩ := underway'.fitness_eq
  obtain ⟨front, gathered⟩ := several.gathered (.next trail.reached completed)
  obtain ⟨r, -, best⟩ := gathered.best
  obtain ⟨snap, summed⟩ := exists_snapshot silent known best s
  obtain ⟨-, -, reported, -⟩ := of_snapshot summed
  exact ⟨snap, run', s', completed, .next trail completed summed, reported⟩

/-- The best point of a run with several objectives, whatever the strategy and the seed. After every
generation there is a front, and its representative is reported. In the next generation the front is
offered the points that are evaluated, and the sum of the objectives of the representative does not
grow, unless one of the points makes a full front of two or more members give up its representative.
So without a limit, or with a limit of one, no sum in a history is larger than an earlier one, and
none is smaller than the last. What a solver reports is such a history with the best point at its
end. -/
theorem best_sum_descends {plan : Plan σ} {w : Nat} (several : plan.Several w) :
    (∀ n run, plan.Reached n run → ∃ (front : Front Float Value) (r : Member Float Value),
      run.front? = some front ∧ front.limit = plan.frontLimit ∧ front.representative = .ok r ∧
      run.bestF = .ok (.vector r.f) ∧
      ∀ s run' s', (Strategy.generation plan.settings plan.evaluator).run (run, s) =
        (.ok (), (run', s')) →
        ∃ (start : Front Float Value) (points : List (Member Float Value)) (r' : Member Float Value),
          (start = front ∨ start = front.measured) ∧ run.Offers plan.evaluator start points run' ∧
          run'.bestF = .ok (.vector r'.f) ∧
          (r'.f.sum ≤ r.f.sum ∨ ∃ before m after, points = before ++ m :: after ∧
            (before.foldl Front.take start).Forfeits m)) ∧
    ((∀ limit, plan.frontLimit = some limit → limit ≤ 1) →
      ∀ history run, plan.Trail history run → (history.map (·.best.sum)).Pairwise (· ≥ ·) ∧
        ∀ best, run.bestF = .ok best → ∀ snap ∈ history, best.sum ≤ snap.best.sum) ∧
    ∀ session result, (plan.solve.run (.fresh, session)).1 = .ok result →
      ∃ run, plan.Trail result.history run ∧ run.bestF = .ok result.best := by
  refine ⟨fun n run reached => ?_, fun narrow history run trail => trail.descends several narrow,
    fun session result solved => trail_of_solve solved⟩
  obtain ⟨front, gathered⟩ := several.gathered reached
  obtain ⟨r, chosen, best⟩ := gathered.best
  refine ⟨front, r, ?_, gathered.limit, chosen, best, fun s run' s' completed => ?_⟩
  · rw [Run.front?, gathered.tracked]
    rfl
  · exact gathered.descends several chosen s _ _ completed

end Plan

/-- Two kinds of points are best in one objective each, and one point is good in both. All others are
bad. -/
def tradeOf (x : Row Float) : Except Raised Value :=
  .ok (.list (
    if x.gene 0 == 0.25 then [.float 0.0, .float 10.0]
    else if x.gene 0 == 0.75 then [.float 1.0, .float 1.0]
    else if x.gene 0 < 0.5 then [.float 10.0, .float 0.0]
    else [.float 20.0, .float 20.0]))

def trade : Problem Unit :=
  { bothEnds with
    objective x := ExceptT.mk fun s => (tradeOf x, s)
    name := "trade" }

theorem trade_answers : trade.Answers tradeOf :=
  fun _ _ => rfl

theorem trade_rated (x : Row Float) :
    ∃ raw product, trade.rated tradeOf x = .ok (raw, product) ∧ raw.Exact 2 := by
  have answers : tradeOf x = .ok (.list [.float 0.0, .float 10.0]) ∨
      tradeOf x = .ok (.list [.float 1.0, .float 1.0]) ∨
      tradeOf x = .ok (.list [.float 10.0, .float 0.0]) ∨
      tradeOf x = .ok (.list [.float 20.0, .float 20.0]) := by
    unfold tradeOf
    split_ifs <;> simp
  rcases answers with same | same | same | same <;> rw [Problem.rated, Problem.answered, same]
  all_goals exact ⟨_, _, rfl, rfl, by decide +kernel, by decide +kernel, by decide +kernel⟩

theorem trade_exact (x raw : Row Float) (product : Option Value)
    (h : trade.rated tradeOf x = .ok (raw, product)) : raw.Exact 2 := by
  obtain ⟨raw', product', rated, exact⟩ := trade_rated x
  rw [h] at rated
  cases rated
  exact exact

theorem trade_total : trade.Total tradeOf 1 2 := by
  refine ⟨fun _ h => (Option.some.inj h).symm, fun x _ => ?_⟩
  obtain ⟨raw, product, rated, exact⟩ := trade_rated x
  exact ⟨raw, product, rated, exact.size⟩

/-- Two points twice. -/
def twoPairs : Initializer Unit :=
  .custom (ExceptT.mk fun s =>
    (.ok (.list [.list [.float 0.25], .list [.float 0.25], .list [.float 0.75],
      .list [.float 0.75]]), s))

def tradeSettings : Differential.Settings :=
  { popSize := 4, f := 0.25 }

/-- Four individuals that trade two objectives. -/
def tradePlan : Plan Unit :=
  { swarmPlan with
    settings := .differential tradeSettings
    target := .problem trade
    initializer := some twoPairs }

def tradeRequest : Request Unit :=
  { swarmRequest with
    strategy := .strategy (.differential tradeSettings)
    target := .target (.problem trade)
    initializer := .function twoPairs }

/-- The same with a front that has room for two of the three. -/
def crowdedPlan : Plan Unit :=
  { tradePlan with frontLimit := some 2 }

namespace Plan

theorem tradePlan_steady : tradePlan.Steady trade tradeOf 2 where
  checked := ⟨[("pop_size", .int 4), ("f", .float 0.25)], rfl⟩
  cold := rfl
  target := rfl
  answers := trade_answers
  total := trade_total
  objective := by decide
  short := by decide
  chunked := ⟨1, none, Backend.serial_inChunks trade_answers⟩

theorem tradePlan_several : tradePlan.Several 2 where
  accepted := ⟨tradeRequest, 0, ⟨(), #[]⟩, _, rfl⟩
  checked := tradePlan_steady.checked
  objectives := Nat.le_refl 2
  evaluator := Backend.exact_of_answers trade_answers trade_exact (Backend.serial_returnsSerial _)
  population := nofun

theorem crowdedPlan_steady : crowdedPlan.Steady trade tradeOf 2 where
  checked := tradePlan_steady.checked
  cold := rfl
  target := rfl
  answers := trade_answers
  total := trade_total
  objective := by decide
  short := by decide
  chunked := tradePlan_steady.chunked

theorem crowdedPlan_several : crowdedPlan.Several 2 where
  accepted := ⟨{ tradeRequest with frontLimit := .int 2 }, 0, ⟨(), #[]⟩, _, rfl⟩
  checked := tradePlan_steady.checked
  objectives := Nat.le_refl 2
  evaluator := tradePlan_several.evaluator
  population := nofun

/-- With room for all points no sum grows in the first two generations. -/
theorem best_sum_of_trade : ∃ (run run' : Run Float Value) (r : Member Float Value)
    (history : List (Snapshot (Best Float))), tradePlan.Reached 0 run ∧
    run.bestF = .ok (.vector r.f) ∧ Row.sum r.f = 2 ∧ tradePlan.Trail history run' ∧
    history.length = 2 ∧ (history.map (·.best.sum)).Pairwise (· ≥ ·) := by
  have begins : (tradePlan.begin.run (tradePlan.start, ⟨(), #[]⟩)).1.toBool = true := by
    decide +kernel
  have opened : tradePlan.Trail [] _ := .ready (t := ⟨(), #[]⟩) (run_eq_ok begins) rfl
  obtain ⟨descents, unlimited, -⟩ := best_sum_descends tradePlan_several
  obtain ⟨-, r, -, -, -, best, -⟩ := descents 0 _ opened.reached
  obtain ⟨snap, _, _, -, first, -⟩ :=
    tradePlan_steady.trail_next tradePlan_several rfl opened ⟨(), #[]⟩
  obtain ⟨snap', run', _, -, second, -⟩ :=
    tradePlan_steady.trail_next tradePlan_several rfl first ⟨(), #[]⟩
  obtain ⟨ordered, -⟩ := unlimited nofun _ _ second
  have two : ∀ best,
      (tradePlan.begin.run (tradePlan.start, ⟨(), #[]⟩)).2.1.bestF = .ok best → best.sum = 2 :=
    of_decide (by decide +kernel)
  exact ⟨_, run', r, _, opened.reached, best, two _ best, second, rfl, ordered⟩

end Plan

deriving instance DecidableEq for Batch

namespace Crowded

/-- What the individuals draw in the first generation. It comes to nothing. -/
def firstTrials : Rows Float :=
  #[#[0.875], #[0.625], #[0.75], #[0.75]]

/-- What they draw in the second one. The last one of these is the newcomer. -/
def secondTrials : Rows Float :=
  #[#[0.625], #[0.25], #[0.75], #[0.375]]

/-- The second trials as they are evaluated. -/
def secondBatch : Batch Float Value :=
  ⟨secondTrials, #[#[20.0, 20.0], #[0.0, 10.0], #[1.0, 1.0], #[10.0, 0.0]], none⟩

def start : Run Float Value :=
  (crowdedPlan.begin.run (crowdedPlan.start, ⟨(), #[]⟩)).2.1

theorem begins : (crowdedPlan.begin.run (crowdedPlan.start, ⟨(), #[]⟩)).1.toBool = true := by
  decide +kernel

/-- Nobody has drawn yet, so that every stream is where its seed puts it. -/
theorem start_streams (i : Nat) : start.streams.get (.individual i) = .seeded 0 i := by
  have undrawn : Undrawn crowdedPlan.begin := by
    refine .bind (Initial.undrawn_populate_custom _) fun _ => ?_
    exact .bind (undrawn_evaluateAll _) fun _ => undrawn_updateBest
  have same : start.streams = .start 0 := undrawn.streams _ _ (Plan.run_eq_ok begins)
  rw [same]
  simp [Streams.get, Streams.start]

/-- What becomes of trials. The streams play no part in it. -/
def adopted (run : Run Float Value) (trials : Rows Float) :
    Except Error Nat × Run Float Value × Session Unit :=
  (Differential.adopt crowdedPlan.evaluator (run.bounds.clipRows trials)).run
    ({ run with streams := .start 0 }, ⟨(), #[]⟩)

/-- The run after a generation with these trials, but for its streams. -/
def traded (run : Run Float Value) (trials : Rows Float) : Run Float Value :=
  Differential.concluded (adopted run trials).2.1

/-- Everyone draws the trial that is given for it, the trials can be adopted, and the best point has
this sum after them. -/
structure Plays (run : Run Float Value) (g : Nat → Random.Generator) (trials : Rows Float)
    (sum : ℚ) : Prop where
  popSize : run.popSize = 4
  size : trials.size = 4
  drawn : ∀ i < 4, ∀ x, (Differential.trial tradeSettings run i (g i)).1 = .ok x → x = trials.row i
  passes : (adopted run trials).1.toBool = true
  best : ∀ best, (traded run trials).bestF = .ok best → best.sum = sum

theorem Plays.generation {run run' : Run Float Value} {trials : Rows Float} {sum : ℚ}
    {streams : Streams} {g : Nat → Random.Generator} {s' : Session Unit}
    (plays : Plays run g trials sum) (left : ∀ i < 4, streams.get (.individual i) = g i)
    (completed : (Strategy.generation crowdedPlan.settings crowdedPlan.evaluator).run
      ({ run with streams }, ⟨(), #[]⟩) = (.ok (), (run', s'))) :
    ∃ streams', run' = { traded run trials with streams := streams' } ∧ ∀ i < 4,
      streams'.get (.individual i) = (Differential.trial tradeSettings run i (g i)).2 := by
  obtain ⟨popSize, size, drawn, passes, -⟩ := plays
  obtain ⟨_, ran⟩ := Plan.exists_run_eq_ok passes
  rw [← popSize] at size left drawn ⊢
  exact Differential.generation_of_trials size left drawn ran _ _ completed

theorem plays_first : Plays start (.seeded 0) firstTrials 2 where
  popSize := by decide +kernel
  size := rfl
  drawn := by
    intro i inside
    apply of_decide
    revert i
    decide +kernel
  passes := by decide +kernel
  best := of_decide (by decide +kernel)

theorem fold_secondBatch : (Tracker.fold (.several full) secondBatch).1 = .several reduced := by
  have numbers : secondBatch.Rated := ⟨by decide +kernel, by decide +kernel⟩
  have members : secondBatch.members =
      [point 0.625 #[20.0, 20.0], point 0.25 #[0.0, 10.0], point 0.75 #[1.0, 1.0], newcomer] := by
    decide +kernel
  have first : full.take (point 0.625 #[20.0, 20.0]) = full := by decide +kernel
  have second : full.take (point 0.25 #[0.0, 10.0]) = full := by decide +kernel
  have third : full.take (point 0.75 #[1.0, 1.0]) = full := by decide +kernel
  rw [Tracker.fold_eq_foldl _ numbers, members, Tracker.foldl_take_front]
  simp only [List.foldl_cons, List.foldl_nil, first, second, third, take_newcomer]

/-- The front gives up its representative where the second batch waits. -/
theorem front?_concluded {run : Run Float Value} (before : run.front? = some full)
    (waits : run.pending = #[secondBatch]) :
    (Differential.concluded run).front? = some reduced := by
  rw [Run.front?, Differential.tracker_concluded (Run.tracker_of_front? before), waits]
  exact congrArg Tracker.front? fold_secondBatch

theorem plays_second : Plays (traded start firstTrials)
    (fun i => (Differential.trial tradeSettings start i (.seeded 0 i)).2) secondTrials 10 where
  popSize := by decide +kernel
  size := rfl
  drawn := by
    intro i inside
    apply of_decide
    revert i
    decide +kernel
  passes := by decide +kernel
  best := by
    have before : (adopted (traded start firstTrials) secondTrials).2.1.front? = some full := by
      decide +kernel
    have waits : (adopted (traded start firstTrials) secondTrials).2.1.pending =
        #[secondBatch] := by
      decide +kernel
    have sum : ∀ m, reduced.representative = .ok m → Row.sum m.f = 10 :=
      of_decide (by decide +kernel)
    intro best reported
    rw [Run.bestF, traded, front?_concluded before waits] at reported
    obtain ⟨m, chosen, rfl⟩ := of_map reported
    exact sum m chosen

end Crowded

/-- A front with room for two points cannot keep all three. In the second generation it gives up the
one that is good in both objectives, and the sum in the history grows from two to ten. -/
theorem Plan.best_sum_grows : crowdedPlan.Several 2 ∧ ∃ snap snap' run,
    crowdedPlan.Trail [snap, snap'] run ∧ snap.best.sum = 2 ∧ snap'.best.sum = 10 := by
  refine ⟨crowdedPlan_several, ?_⟩
  have opened : crowdedPlan.Trail [] Crowded.start :=
    .ready (t := ⟨(), #[]⟩) (run_eq_ok Crowded.begins) rfl
  obtain ⟨snap, _, _, completed, first, best⟩ :=
    crowdedPlan_steady.trail_next crowdedPlan_several rfl opened ⟨(), #[]⟩
  obtain ⟨streams, rfl, left⟩ :=
    Crowded.plays_first.generation (fun i _ => Crowded.start_streams i) completed
  obtain ⟨snap', _, _, completed', second, best'⟩ :=
    crowdedPlan_steady.trail_next crowdedPlan_several rfl first ⟨(), #[]⟩
  obtain ⟨streams', rfl, -⟩ := Crowded.plays_second.generation left completed'
  exact ⟨snap, snap', _, second, Crowded.plays_first.best _ best,
    Crowded.plays_second.best _ best'⟩

end BoxSearch
