import BoxSearch.Proofs.Run.Fidelity
import BoxSearch.Proofs.Strategy.Agreement
import Mathlib.Algebra.GroupWithZero.Nat
import Mathlib.Algebra.Order.BigOperators.Group.List
import Mathlib.Algebra.Order.Ring.Nat
import Mathlib.Data.List.Forall2

/-!
Strategies keep a run faithful.

Candidates are moved into the box before they are evaluated, and again when they take a place in
the population, which changes nothing any more. The lists of places, pairs, owners and masks
through which they get there treat positions and fitness alike.
-/

namespace BoxSearch

open Search

variable {σ α P : Type} [Scalar α] {R : Rating α P} {s : Run α P × Session σ}

theorem Rating.rates_singleton {box : Bounds α} {x f : Row α} (h : R.Pairs (box.clip x) f) :
    R.Rates box #[x] #[f] := by
  refine ⟨rfl, fun k hk => ?_⟩
  have first : k = 0 := by simpa using hk
  subst first
  exact h

/-- A candidate that was rated takes the place of one member of the population. -/
theorem rewrites_take {run run' : Run α P} {C FC : Rows α} {i k : Nat} (h : Rewrites R run run')
    (rates : R.Rates run.bounds C FC) (inside : k < C.size) :
    Rewrites R run (run'.overwrite [i] #[C.row k] #[FC.row k]) := by
  have good := rates.rows k inside
  rw [← h.bounds] at good
  exact h.trans (rewrites_overwrite (.refl h.paired h.evaluated) rfl
    (Rating.rates_singleton good))

/-- The rule for a list of computations that draw. -/
theorem mapM_drawn {ι β : Type} {f : ι → Search σ α P β} {holds : ι → β → Prop}
    (each : ∀ x s, Ensures (f x) s fun b s' => holds x b ∧ Redrawn s.1 s'.1) (xs : List ι) :
    Ensures (xs.mapM f) s fun bs s' => List.Forall₂ holds xs bs ∧ Redrawn s.1 s'.1 := by
  induction xs generalizing s with
  | nil => exact (ensures_pure _).mpr ⟨.nil, .refl _⟩
  | cons x xs ih =>
    rw [List.mapM_cons]
    simp only [ensures_bind, ensures_pure]
    exact (each x s).mono fun b s₁ h₁ => ih.mono fun bs s₂ h₂ =>
      ⟨.cons h₁.1 h₂.1, h₁.2.trans h₂.2⟩

namespace Genetic

/-- A child takes the place of one of its parents, or nothing happens. -/
theorem challenge_takes (a b : Nat) (run : Run α P) (child : Row α × Row α) :
    challenge a b run child = run ∨
      ∃ i, challenge a b run child = run.overwrite [i] #[child.1] #[child.2] := by
  unfold challenge
  cases run.F with
  | none => exact .inl rfl
  | some F =>
    dsimp only
    generalize (if firstWeaker (F.row a) (F.row b) = true then a else b) = loser
    split
    · exact .inr ⟨loser, rfl⟩
    · exact .inl rfl

/-- What holds before families compete, and is kept when a child takes the place of one member of
the population, holds afterwards. -/
theorem competeAll_induction {motive : Run α P → Prop} {families : List (Family α)}
    {C FC : Rows α} {run : Run α P} (first : motive run)
    (step : ∀ run' i k, motive run' → k < 2 * families.length →
      motive (run'.overwrite [i] #[C.row k] #[FC.row k])) :
    motive (competeAll families C FC run) := by
  refine List.foldlRecOn (motive := motive) _ _ first ?_
  rintro run' h' ⟨family, k⟩ hentry
  have below : k < families.length := by
    obtain ⟨-, below, -⟩ := List.mem_zipIdx hentry
    omega
  refine List.foldlRecOn (motive := motive) _ _ h' fun run'' h'' child hchild => ?_
  -- either order of the two children holds the same two rows
  have one : ∃ j < 2 * families.length, child = (C.row j, FC.row j) := by
    split at hchild <;> rcases List.mem_pair.mp hchild with rfl | rfl
    · exact ⟨2 * k, by omega, rfl⟩
    · exact ⟨2 * k + 1, by omega, rfl⟩
    · exact ⟨2 * k + 1, by omega, rfl⟩
    · exact ⟨2 * k, by omega, rfl⟩
  obtain ⟨j, inside, rfl⟩ := one
  rcases challenge_takes family.first family.second run'' (C.row j, FC.row j) with kept | ⟨i, wins⟩
  · rw [kept]
    exact h''
  · rw [wins]
    exact step _ _ _ h'' inside

/-- Families compete with their own children, two for each family in the order of the families. -/
theorem competeAll_rewrites {families : List (Family α)} {C FC : Rows α} {run : Run α P}
    (h : Rewrites R run run) (rates : R.Rates run.bounds C FC)
    (size : C.size = 2 * families.length) : Rewrites R run (competeAll families C FC run) := by
  apply competeAll_induction h
  intro run' i k h' below
  exact rewrites_take h' rates (by rwa [size])

theorem size_children (box : Bounds α) (families : List (Family α)) :
    (box.clipRows (families.flatMap fun f => [f.firstChild, f.secondChild]).toArray).size =
      2 * families.length := by
  rw [Bounds.size_clipRows, List.size_toArray]
  induction families with
  | nil => rfl
  | cons family families ih =>
    rw [List.flatMap_cons, List.length_append, ih]
    simp only [List.length_cons, List.length_nil]
    omega

/-- The places of the parents. -/
def Family.places (family : Family α) : Nat × Nat :=
  (family.first, family.second)

theorem breed_drawn (settings : Settings) (a b : Nat) :
    Ensures (breed settings a b) s fun family s' =>
      (a, b) = family.places ∧ Redrawn s.1 s'.1 := by
  simp only [breed, ensures_bind, ensures_current, ensures_pure]
  exact (draw_redrawn _ _).mono fun _ s₁ h₁ => (draw_redrawn _ _).mono fun _ s₂ h₂ =>
    ⟨rfl, h₁.trans h₂⟩

/-- There is one family for each pair. -/
theorem breedAll_drawn (settings : Settings) (pairs : List (Nat × Nat)) :
    Ensures (pairs.mapM fun pair => breed settings pair.1 pair.2) s fun families s' =>
      families.map Family.places = pairs ∧ Redrawn s.1 s'.1 := by
  have each (pair : Nat × Nat) (s : Run α P × Session σ) :
      Ensures (breed settings pair.1 pair.2 : Search σ α P _) s fun family s' =>
        pair = family.places ∧ Redrawn s.1 s'.1 :=
    breed_drawn settings pair.1 pair.2
  refine (mapM_drawn each pairs).mono fun families s' h => ⟨?_, h.2⟩
  have matched := List.forall₂_map_right_iff.mpr h.1
  exact (List.forall₂_eq_eq_eq ▸ matched).symm

theorem step_faithful {evaluator : Evaluator σ α P} (honest : evaluator.Honest R)
    (h : s.1.Faithful R) (settings : Settings) :
    Ensures (step settings evaluator) s fun _ s' => s'.1.Faithful R := by
  simp only [step, ensures_bind, ensures_current, ensures_ite, ensures_ofExcept, ensures_update]
  refine (draw_redrawn _ _).mono fun order s₁ h₁ => ?_
  refine (breedAll_drawn settings _).mono fun families s₂ h₂ => ?_
  have redrawn := h₁.trans h₂.2
  have faithful := faithful_of_redrawn h redrawn
  constructor
  · intro _
    refine (log_ensures _).mono fun _ s₃ h₃ => ?_
    rw [h₃.1]
    exact faithful
  · intro _
    refine (evaluate_faithful honest faithful _).mono fun FC s₃ h₃ stored hstored => ?_
    obtain ⟨rates, faithful₃, same⟩ := h₃
    have evaluated : s₃.1.F.isSome = true := by
      rw [Run.F_of_fitness hstored]
      rfl
    rw [← same.population.1] at rates
    have here : Rewrites R s₃.1 s₃.1 := .refl faithful₃.paired evaluated
    exact (competeAll_rewrites here rates (size_children _ _)).faithful faithful₃

end Genetic

namespace Differential

theorem step_faithful {evaluator : Evaluator σ α P} (honest : evaluator.Honest R)
    (h : s.1.Faithful R) (settings : Settings) :
    Ensures (step settings evaluator) s fun _ s' => s'.1.Faithful R := by
  simp only [step, ensures_bind, ensures_current]
  refine (perIndividual_ensures _).mono fun trials s₁ drawn => ?_
  obtain ⟨size, redrawn⟩ := drawn
  refine evaluateAccept_faithful honest (faithful_of_redrawn h redrawn) ?_
  obtain ⟨streams, same⟩ := redrawn
  rw [Bounds.size_clipRows, size, same]

end Differential

namespace Firefly

theorem mem_walk {start : Row α} {candidates : List (Row α × Row α)} {c : Row α × Row α}
    (h : walk start candidates = some c) : c ∈ candidates := by
  let step (held : Row α × Option (Row α × Row α)) (c : Row α × Row α) :=
    if Dominance.notWorse c.2 held.1 then (c.2, some c) else held
  have loop (candidates : List (Row α × Row α)) (held : Row α × Option (Row α × Row α)) :
      (candidates.foldl step held).2 = some c → held.2 = some c ∨ c ∈ candidates := by
    induction candidates generalizing held with
    | nil => exact .inl
    | cons d candidates ih =>
      intro hc
      rcases ih (step held d) hc with now | later
      · by_cases taken : Dominance.notWorse d.2 held.1 = true
        · simp only [step, if_pos taken] at now
          cases now
          exact .inr List.mem_cons_self
        · simp only [step, if_neg taken] at now
          exact .inl now
      · exact .inr (List.mem_cons_of_mem _ later)
  rcases loop candidates (start, none) h with none | found
  · cases none
  · exact found

/-- One firefly moves to where its walk ends. The second part of `acc` is where its candidates
begin. -/
def settleStep (F C FC : Rows α) (acc : Run α P × Nat) (entry : Nat × Nat) :
    Run α P × Nat :=
  let own := (List.range entry.1).map fun k => (C.row (acc.2 + k), FC.row (acc.2 + k))
  match walk (F.row entry.2) own with
  | some (x, f) => (acc.1.overwrite [entry.2] #[x] #[f], acc.2 + entry.1)
  | none => (acc.1, acc.2 + entry.1)

theorem settleAll_eq (F C FC : Rows α) (counts : List Nat) (run : Run α P) :
    settleAll F C FC counts run = (counts.zipIdx.foldl (settleStep F C FC) (run, 0)).1 :=
  rfl

/-- A firefly ends its walk at a candidate of its own, or where it was. -/
theorem settleStep_cases (F C FC : Rows α) (run : Run α P) (offset count i : Nat) :
    settleStep F C FC (run, offset) (count, i) = (run, offset + count) ∨
      ∃ k < count, settleStep F C FC (run, offset) (count, i) =
        (run.overwrite [i] #[C.row (offset + k)] #[FC.row (offset + k)], offset + count) := by
  unfold settleStep
  dsimp only
  split
  case h_1 x f reached =>
    obtain ⟨k, hk, own⟩ := List.mem_map.mp (mem_walk reached)
    cases own
    exact .inr ⟨k, List.mem_range.mp hk, rfl⟩
  case h_2 => exact .inl rfl

/-- The candidates of the next firefly begin where those of this one end. -/
theorem settleStep_snd (F C FC : Rows α) (acc : Run α P × Nat) (entry : Nat × Nat) :
    (settleStep F C FC acc entry).2 = acc.2 + entry.1 := by
  rcases settleStep_cases F C FC acc.1 acc.2 entry.1 entry.2 with stays | ⟨k, -, moves⟩
  · rw [stays]
  · rw [moves]

/-- The fireflies walk one after another. What holds before the first walk, and is kept by the walk
of the `i`-th firefly through candidates of its own, holds after the last one. -/
theorem settleAll_walks {motive : Nat → Run α P → Prop} {F C FC : Rows α} {counts : List Nat}
    {run : Run α P} (first : motive 0 run)
    (walk : ∀ i run' (inside : i < counts.length), motive i run' →
      motive (i + 1) (settleStep F C FC (run', (counts.take i).sum) (counts[i], i)).1) :
    motive counts.length (settleAll F C FC counts run) := by
  have upTo (i : Nat) (within : i ≤ counts.length) :
      let acc := (counts.take i).zipIdx.foldl (settleStep F C FC) (run, 0)
      motive i acc.1 ∧ acc.2 = (counts.take i).sum := by
    induction i with
    | zero => exact ⟨first, rfl⟩
    | succ i ih =>
      have inside : i < counts.length := within
      obtain ⟨holds, begins⟩ := ih (Nat.le_of_lt inside)
      have length : (counts.take i).length = i := by simp [Nat.le_of_lt inside]
      rw [List.take_succ_eq_append_getElem inside, List.zipIdx_append, List.foldl_append, length,
        Nat.zero_add]
      refine ⟨?_, ?_⟩
      · have next := walk i _ inside holds
        rw [← begins] at next
        exact next
      · rw [List.sum_append, ← begins]
        exact settleStep_snd _ _ _ _ _
  have whole := (upTo counts.length (Nat.le_refl _)).1
  rw [List.take_length] at whole
  exact whole

/-- The candidates of each firefly are among those of all. -/
theorem sum_take_add_le {counts : List Nat} {i : Nat} (inside : i < counts.length) :
    (counts.take i).sum + counts[i] ≤ counts.sum := by
  rw [← List.sum_take_succ counts i inside]
  exact (List.take_sublist _ _).sum_le_sum fun _ _ => Nat.zero_le _

/-- What is kept when a candidate takes the place of a firefly is kept by all walks. -/
theorem settleAll_induction {motive : Run α P → Prop} {F C FC : Rows α} {counts : List Nat}
    {run : Run α P} (first : motive run)
    (step : ∀ run' i k, motive run' → k < counts.sum →
      motive (run'.overwrite [i] #[C.row k] #[FC.row k])) :
    motive (settleAll F C FC counts run) := by
  apply settleAll_walks (motive := fun _ => motive) first
  intro i run' inside holds
  rcases settleStep_cases F C FC run' (counts.take i).sum counts[i] i with stays | ⟨k, below, moves⟩
  · rw [stays]
    exact holds
  · rw [moves]
    apply step _ _ _ holds
    have among := sum_take_add_le inside
    omega

/-- Whatever walks the fireflies take, positions and fitness stay together. -/
theorem settleAll_rewrites {F C FC : Rows α} {counts : List Nat} {run : Run α P}
    (h : Rewrites R run run) (rates : R.Rates run.bounds C FC) (size : C.size = counts.sum) :
    Rewrites R run (settleAll F C FC counts run) := by
  apply settleAll_induction h
  intro run' i k h' below
  exact rewrites_take h' rates (by rwa [size])

theorem step_faithful {evaluator : Evaluator σ α P} (honest : evaluator.Honest R)
    (h : s.1.Faithful R) (settings : Settings) :
    Ensures (step settings evaluator) s fun _ s' => s'.1.Faithful R := by
  simp only [step, ensures_bind, ensures_current, ensures_ofExcept, ensures_update]
  intro stored hstored
  refine (perIndividual_ensures _).mono fun drawn s₁ h₁ => ?_
  have faithful := faithful_of_redrawn h h₁.2
  refine (evaluate_faithful honest faithful _).mono fun FC s₂ h₂ => ?_
  obtain ⟨streams, same₁⟩ := h₁.2
  obtain ⟨rates, faithful₂, same₂⟩ := h₂
  obtain ⟨bounds, _, fitness, _⟩ := same₂.population
  have evaluated : s₂.1.F.isSome = true := by
    rw [fitness, same₁]
    change s.1.F.isSome = true
    rw [Run.F_of_fitness hstored]
    rfl
  rw [← bounds] at rates
  have size : (s.1.bounds.clipRows (drawn.toList.flatMap id).toArray).size =
      (drawn.toList.map List.length).sum := by
    rw [Bounds.size_clipRows]
    simp
  exact (settleAll_rewrites (.refl faithful₂.paired evaluated) rates size).faithful faithful₂

end Firefly

namespace Swarm

omit [Scalar α] in
theorem row_tabulated (f : Nat → Row α) {n i : Nat} (h : i < n) :
    Rows.row ((Array.range n).map f) i = f i := by
  simp [Rows.row, h]

/-- What a particle remembers after a look at the population is what the population has or what it
remembered before. -/
theorem row_remember {X F bestX bestF : Rows α} {i : Nat} (insideX : i < bestX.size)
    (insideF : i < bestF.size) :
    ((remember X F bestX bestF).1.row i, (remember X F bestX bestF).2.row i) =
      if (Dominance.notWorseRows F bestF).getD i false then (X.row i, F.row i)
      else (bestX.row i, bestF.row i) := by
  have chosenX : (remember X F bestX bestF).1.row i =
      if (Dominance.notWorseRows F bestF).getD i false then X.row i else bestX.row i :=
    row_tabulated _ insideX
  have chosenF : (remember X F bestX bestF).2.row i =
      if (Dominance.notWorseRows F bestF).getD i false then F.row i else bestF.row i :=
    row_tabulated _ insideF
  rw [chosenX, chosenF]
  split <;> rfl

theorem recalls_remember {n : Nat} {X F bestX bestF : Rows α} (sizeX : bestX.size = n)
    (sizeF : bestF.size = n) (now : ∀ i < n, R.Pairs (X.row i) (F.row i))
    (before : ∀ i < n, R.Pairs (bestX.row i) (bestF.row i)) :
    (remember X F bestX bestF).1.size = n ∧ (remember X F bestX bestF).2.size = n ∧
      ∀ i < n, R.Pairs ((remember X F bestX bestF).1.row i)
        ((remember X F bestX bestF).2.row i) := by
  refine ⟨by simp [remember, sizeX], by simp [remember, sizeF], fun i hi => ?_⟩
  have row := @row_remember _ _ X F bestX bestF i (by omega) (by omega)
  split at row
  · obtain ⟨chosenX, chosenF⟩ := Prod.mk.inj row
    rw [chosenX, chosenF]
    exact now i hi
  · obtain ⟨chosenX, chosenF⟩ := Prod.mk.inj row
    rw [chosenX, chosenF]
    exact before i hi

/-- The swarm has best places in its memory. -/
def Remembers (run : Run α P) : Prop :=
  ∃ bestX bestF, run.swarm.bestX = some bestX ∧ run.swarm.bestF = some bestF

/-- A run with another memory, which goes together. -/
theorem faithful_recalling {run : Run α P} (h : run.Faithful R) {memory : Memory α}
    {remarks : List (String × Note α)} (recalls : R.Recalls run.popSize memory) :
    Run.Faithful R { run with swarm := memory, remarks } :=
  ⟨h.paired, h.backed, recalls⟩

theorem remember_eq (run : Run α P) (part : Part) (rows : Rows α) :
    run.remember part rows =
      { run with
        swarm := run.swarm.set part (some rows)
        remarks := run.remarks.filter (·.1 != part.name) } :=
  rfl

theorem prepare_faithful (h : s.1.Faithful R) (fresh : s.1.stalePlaces = []) :
    Ensures (prepare : Search σ α P Unit) s fun _ s' =>
      s'.1.Faithful R ∧ s'.1.stalePlaces = [] ∧ Remembers s'.1 := by
  simp only [prepare, ensures_bind, ensures_current, ensures_ofExcept, ensures_update, remember_eq,
    Memory.set]
  intro F hF
  have stored : s.1.F = some F := Run.F_of_fitness hF
  refine ⟨faithful_recalling h ?_, fresh, s.1.X, F, rfl, rfl⟩
  intro bestX bestF hX hF
  cases hX
  cases hF
  exact ⟨h.paired.sizeX, h.paired.sizeF F stored, Run.pairs_of_fresh h.paired fresh stored⟩

theorem remembered_eq {run : Run α P} {part : Part} {rows : Rows α}
    (h : run.remembered part = .ok rows) : run.swarm.get part = some rows := by
  rw [Run.remembered] at h
  split at h
  case h_1 rows' found =>
    cases h
    exact found
  case h_2 =>
    split at h <;> cases h

theorem updateBests_faithful (h : s.1.Faithful R) (fresh : s.1.stalePlaces = []) :
    Ensures (updateBests : Search σ α P Unit) s fun _ s' =>
      s'.1.Faithful R ∧ Remembers s'.1 := by
  simp only [updateBests, ensures_bind, ensures_current, ensures_ofExcept, ensures_ite,
    ensures_throw, ensures_update, remember_eq, Memory.set]
  intro bestX hX bestF hF F hstored
  have stored : s.1.F = some F := Run.F_of_fitness hstored
  obtain ⟨sizeX, sizeF, before⟩ := h.recalls bestX bestF (remembered_eq hX) (remembered_eq hF)
  have now := Run.pairs_of_fresh h.paired fresh stored
  refine ⟨fun _ => trivial, fun _ => ⟨faithful_recalling h ?_, _, _, rfl, rfl⟩⟩
  intro bestX' bestF' hX' hF'
  cases hX'
  cases hF'
  exact recalls_remember sizeX sizeF now before

theorem measureFront_eq (run : Run α P) :
    ∃ tracker, run.measureFront = { run with tracker } := by
  rw [Run.measureFront]
  split
  · exact ⟨_, rfl⟩
  · exact ⟨_, rfl⟩

/-- Having the crowding distances of the front at hand changes nothing of what it holds. -/
theorem measureFront_faithful {run : Run α P} (h : run.Faithful R) :
    run.measureFront.Faithful R ∧ run.measureFront.swarm = run.swarm := by
  rw [Run.measureFront]
  split
  case h_1 front tracked =>
    refine ⟨⟨h.paired, ?_, h.recalls⟩, rfl⟩
    refine ⟨?_, h.backed.waiting, h.backed.size, ?_, ?_⟩
    · intro t ht m hm
      cases ht
      exact h.backed.held _ tracked m hm
    · intro t ht
      cases ht
      obtain ⟨width, objectives, -, widths⟩ := h.backed.width _ tracked
      exact ⟨width, objectives, fun _ _ => trivial, widths⟩
    · intro none
      cases none
  case h_2 => exact ⟨h, rfl⟩

variable [OrderedScalar α]

theorem fly_faithful (h : s.1.Faithful R) (fresh : s.1.stalePlaces = []) (settings : Settings) :
    Ensures (fly settings : Search σ α P Unit) s fun _ s' =>
      s'.1.Faithful R ∧ Remembers s'.1 := by
  simp only [fly, ensures_bind, ensures_current, ensures_ofExcept, ensures_ite, ensures_throw,
    ensures_update]
  refine (updateBests_faithful h fresh).mono fun _ s₁ h₁ velocity _ bestX _ => ?_
  refine ⟨fun _ => trivial, fun _ => ?_⟩
  obtain ⟨faithful₁, swarm₁⟩ := measureFront_faithful h₁.1
  refine (perIndividual_ensures _).mono fun velocity' s₂ h₂ => ?_
  obtain ⟨size, redrawn⟩ := h₂
  have faithful₂ := faithful_of_redrawn faithful₁ redrawn
  obtain ⟨streams, same⟩ := redrawn
  rw [same] at faithful₂ ⊢
  have sizeMoved : (Array.zipWith moved s₁.1.measureFront.X velocity').size =
      s₁.1.measureFront.popSize := by
    rw [Array.size_zipWith, size, faithful₁.paired.sizeX, Nat.min_self]
  have paired := faithful₂.paired
  let launched : Run α P := Run.remember { s₁.1.measureFront with streams } .velocity velocity'
  have rested : (launched.moveAll (Array.zipWith moved s₁.1.measureFront.X velocity')).Paired R :=
    Run.paired_moveAll sizeMoved paired.sizeX paired.sizeStale paired.sizeF
  refine ⟨⟨rested, faithful₂.backed, faithful₂.recalls⟩, ?_⟩
  obtain ⟨bestX, bestF, hX, hF⟩ := h₁.2
  rw [← swarm₁] at hX hF
  exact ⟨bestX, bestF, hX, hF⟩

theorem step_faithful (h : s.1.Faithful R) (fresh : s.1.stalePlaces = []) (settings : Settings) :
    Ensures (step settings : Search σ α P Unit) s fun _ s' =>
      s'.1.Faithful R ∧ Remembers s'.1 := by
  rw [step_eq]
  simp only [ensures_bind, ensures_current, ensures_ite]
  constructor
  · intro _
    exact (prepare_faithful h fresh).mono fun _ s₁ h₁ => fly_faithful h₁.1 h₁.2.1 settings
  · intro _
    exact fly_faithful h fresh settings

end Swarm

namespace Teaching

theorem step_faithful {evaluator : Evaluator σ α P} (honest : evaluator.Honest R)
    (h : s.1.Faithful R) :
    Ensures (step evaluator) s fun _ s' => s'.1.Faithful R := by
  simp only [step, teacherPhase, learnerPhase, ensures_bind, ensures_current, ensures_ofExcept]
  refine (perIndividual_ensures _).mono fun taught s₁ h₁ => ?_
  obtain ⟨size₁, streams₁, same₁⟩ := h₁
  have faithful₁ := faithful_of_redrawn h ⟨streams₁, same₁⟩
  refine (evaluateAccept_faithful honest faithful₁ ?_).mono fun _ s₂ faithful₂ stored _ => ?_
  · rw [Bounds.size_clipRows, size₁, same₁]
  refine (perIndividual_ensures _).mono fun learnt s₃ h₃ => ?_
  obtain ⟨size₃, streams₃, same₃⟩ := h₃
  have faithful₃ := faithful_of_redrawn faithful₂ ⟨streams₃, same₃⟩
  refine evaluateAccept_faithful honest faithful₃ ?_
  rw [Bounds.size_clipRows, size₃, same₃]

end Teaching

namespace Strategy

theorem prepare_faithful (h : s.1.Faithful R) (fresh : s.1.stalePlaces = []) (settings : Settings) :
    Ensures (prepare settings : Search σ α P Unit) s fun _ s' =>
      s'.1.Faithful R ∧ s'.1.stalePlaces = [] ∧
        ∀ swarm, settings = .swarm swarm → Swarm.Remembers s'.1 := by
  cases settings with
  | swarm settings =>
    refine (Swarm.prepare_faithful h fresh).mono fun _ s' h' => ?_
    exact ⟨h'.1, h'.2.1, fun _ _ => h'.2.2⟩
  | genetic | differential | firefly | teaching =>
    refine (ensures_pure _).mpr ⟨h, fresh, fun _ hswarm => ?_⟩
    cases hswarm

variable [OrderedScalar α]

/-- One step of any strategy; a swarm has best places in its memory afterwards. -/
theorem step_faithful {evaluator : Evaluator σ α P} (honest : evaluator.Honest R)
    (h : s.1.Faithful R) (fresh : s.1.stalePlaces = []) (settings : Settings) :
    Ensures (step settings evaluator) s fun _ s' =>
      s'.1.Faithful R ∧ ∀ swarm, settings = .swarm swarm → Swarm.Remembers s'.1 := by
  cases settings with
  | genetic settings =>
    refine (Genetic.step_faithful honest h settings).mono fun _ s' h' => ⟨h', fun _ hswarm => ?_⟩
    cases hswarm
  | differential settings =>
    refine (Differential.step_faithful honest h settings).mono
      fun _ s' h' => ⟨h', fun _ hswarm => ?_⟩
    cases hswarm
  | swarm settings =>
    exact (Swarm.step_faithful h fresh settings).mono fun _ s' h' => ⟨h'.1, fun _ _ => h'.2⟩
  | firefly settings =>
    refine (Firefly.step_faithful honest h settings).mono fun _ s' h' => ⟨h', fun _ hswarm => ?_⟩
    cases hswarm
  | teaching settings =>
    refine (Teaching.step_faithful honest h).mono fun _ s' h' => ⟨h', fun _ hswarm => ?_⟩
    cases hswarm

/-- Whatever the strategy, a generation leaves no stale row, and positions and fitness together. -/
theorem generation_faithful {evaluator : Evaluator σ α P} (honest : evaluator.Honest R)
    (h : s.1.Faithful R) (fresh : s.1.stalePlaces = []) (settings : Settings) :
    Ensures (generation settings evaluator) s fun _ s' =>
      s'.1.Faithful R ∧ s'.1.stalePlaces = [] ∧
        ∀ swarm, settings = .swarm swarm → Swarm.Remembers s'.1 := by
  simp only [generation, ensures_bind, ensures_update]
  refine (step_faithful honest h fresh settings).mono fun _ s₁ h₁ => ?_
  refine (evaluateAll_faithful honest h₁.1).mono fun _ s₂ h₂ => ?_
  obtain ⟨faithful₂, fresh₂, swarm₂⟩ := h₂
  refine (updateBest_faithful faithful₂).mono fun _ s₃ h₃ => ?_
  obtain ⟨faithful₃, same⟩ := h₃
  have fresh₃ : s₃.1.stalePlaces = [] := same.stalePlaces.trans fresh₂
  refine ⟨⟨faithful₃.paired, faithful₃.backed, faithful₃.recalls⟩, fresh₃, fun swarm hswarm => ?_⟩
  obtain ⟨bestX, bestF, hX, hF⟩ := h₁.2 swarm hswarm
  obtain ⟨_, _, _, kept⟩ := same.population
  rw [← swarm₂, ← kept] at hX hF
  exact ⟨bestX, bestF, hX, hF⟩

end Strategy

end BoxSearch
