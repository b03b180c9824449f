import BoxSearch.Proofs.Run.Tidy
import BoxSearch.Proofs.Run.Visiting
import BoxSearch.Proofs.Run.Replacement
import BoxSearch.Proofs.Strategy.Progress

/-!
Strategies whose candidates do not depend on the order in which individuals are visited.

Differential evolution, the swarm and both phases of the teaching strategy build one candidate for
each individual before any candidate is evaluated. The rounds below do so as the run is found on
each visit: a particle overwrites its velocity in the memory of the swarm, and the first tournament
between two different members has the crowding distances of the front at hand for later ones.
-/

namespace BoxSearch

open Search Draw

variable {σ α P : Type} [Scalar α]

theorem Run.settles_sampleLeader (run : Run α P) :
    ∃ verdict, (run.sampleLeader : Draw (Row α)).Settles verdict := by
  unfold sampleLeader
  split
  next =>
    split
    next => exact ⟨_, settles_ofExcept _⟩
    next filled =>
      exact ⟨_, settles_bind (settles_of_succeeds (Front.succeeds_sample filled)) fun _ =>
        settles_pure _⟩
  next => exact ⟨_, settles_ofExcept _⟩

namespace Differential

def round (settings : Settings) : Round σ α P (Row α) :=
  .ofDraws (trial settings)

theorem trial_consulted (settings : Settings) {run run' : Run α P} (h : run.Consulted run') :
    trial settings run' = trial settings run := by
  have leader := h.sampleLeader
  obtain ⟨_, _, rfl, -⟩ := h
  funext i
  simp only [trial, leader]
  rfl

theorem settles_drawTakes (settings : Settings) (dim : Nat) :
    ∃ verdict, (drawTakes settings dim).Settles verdict := by
  obtain ⟨_, start⟩ := settles_index dim
  unfold drawTakes
  split
  next =>
    exact ⟨_, settles_bind start fun _ =>
      settles_bind (settles_of_succeeds (succeeds_runLength _ _)) fun _ => settles_pure _⟩
  next =>
    exact ⟨_, settles_bind start fun _ =>
      settles_bind (settles_of_succeeds (succeeds_times succeeds_unit _)) fun _ => settles_pure _⟩

theorem settles_trial (settings : Settings) (run : Run α P) :
    ∃ verdict, ∀ i < run.popSize, (trial settings run i).Settles verdict := by
  obtain ⟨_, donors⟩ := settles_distinct run.popSize settings.mutant.donors
  obtain ⟨_, takes⟩ := settles_drawTakes settings run.dim
  obtain ⟨_, best⟩ := run.settles_sampleLeader
  unfold trial
  split
  next =>
    exact ⟨_, fun i inside => settles_bind (donors i inside) fun _ => settles_bind best fun _ =>
      settles_bind takes fun _ => settles_pure _⟩
  next =>
    exact ⟨_, fun i inside => settles_bind (donors i inside) fun _ =>
      settles_bind (settles_pure _) fun _ => settles_bind takes fun _ => settles_pure _⟩

end Differential

namespace Teaching

/-- The mean of the class is taken before anyone is visited. -/
def teacherRound (mean : Row α) : Round σ α P (Row α) :=
  .ofDraws fun run => teach run mean

/-- The class is copied before anyone is visited, positions and fitness. -/
def learnerRound (start : Run α P) (F : Rows α) : Round σ α P (Row α) :=
  .ofDraws fun _ => learn start F

theorem teach_consulted (mean : Row α) {run run' : Run α P} (h : run.Consulted run') :
    teach run' mean = teach run mean := by
  have leader := h.sampleLeader
  obtain ⟨_, _, rfl, -⟩ := h
  funext i
  simp only [teach, leader]
  rfl

theorem settles_teach (run : Run α P) (mean : Row α) :
    ∃ verdict, ∀ i < run.popSize, (teach run mean i).Settles verdict := by
  obtain ⟨_, leader⟩ := run.settles_sampleLeader
  obtain ⟨_, factor⟩ := settles_index 2
  have units := settles_of_succeeds (succeeds_times succeeds_unit run.dim)
  exact ⟨_, fun i _ => settles_bind leader fun _ => settles_bind factor fun _ =>
    settles_bind units fun _ => settles_pure _⟩

theorem settles_learn (run : Run α P) (F : Rows α) :
    ∃ verdict, ∀ i < run.popSize, (learn run F i).Settles verdict := by
  obtain ⟨_, classmate⟩ := settles_distinct run.popSize 1
  have units := settles_of_succeeds (succeeds_times succeeds_unit run.dim)
  exact ⟨_, fun i inside => settles_bind (classmate i inside) fun _ =>
    settles_bind units fun _ => settles_pure _⟩

end Teaching

namespace Swarm

/-- The velocities that are noted at present. -/
def velocities (run : Run α P) : Rows α :=
  run.swarm.velocity.getD #[]

/-- The best places that are noted at present. -/
def bestPlaces (run : Run α P) : Rows α :=
  run.swarm.bestX.getD #[]

/-- The leader that a particle follows. Distances are looked up if two members differ, and are at
hand from then on. -/
def follow (i : Nat) : Search σ α P (Row α) := do
  let run ← current
  match run.front? with
  | some front =>
    if front.members.isEmpty then Search.ofExcept run.bestX
    else
      let a ← draw (.individual i) (RandomSource.below front.size)
      let b ← draw (.individual i) (RandomSource.below front.size)
      if a != b then update Run.measureFront
      return front.X.row (front.lessCrowded a b)
  | none => Search.ofExcept run.bestX

/-- The new velocity of a particle, which is drawn piece by piece. -/
def accelerateNow (settings : Settings) (i : Nat) : Search σ α P (Row α) := do
  let leader ← follow i
  let toOwn ← draw (.individual i) (Draw.times (← current).dim Draw.unit)
  let toLeader ← draw (.individual i) (Draw.times (← current).dim Draw.unit)
  let run ← current
  return limited (topVelocity settings run.bounds)
    (pulled settings ((velocities run).row i) (run.X.row i) ((bestPlaces run).row i) leader
      (toOwn.map Scalar.ofFloat) (toLeader.map Scalar.ofFloat))

/-- The run with the velocity of one particle overwritten. -/
def turn (i : Nat) (v : Row α) (run : Run α P) : Run α P :=
  { run with swarm.velocity := run.swarm.velocity.map (·.setIfInBounds i v) }

def round (settings : Settings) : Round σ α P (Row α) where
  looks := accelerateNow settings
  leaves := turn
  builds run i v := moved (run.X.row i) v

/-- The part of a flight in which the candidates are built, in the order of the indices. -/
def glide (settings : Settings) (run : Run α P) (velocity bestX : Rows α) :
    Search σ α P (Rows α) := do
  let velocity ← perIndividual (accelerate settings run velocity bestX)
  update (·.remember .velocity velocity)
  return Array.zipWith moved (← current).X velocity

theorem fly_eq_glide (settings : Settings) :
    (fly settings : Search σ α P Unit) = (do
      updateBests
      update Run.measureFront
      let run ← current
      let velocity ← Search.ofExcept (run.remembered .velocity)
      let bestX ← Search.ofExcept (run.remembered .bestX)
      if (velocity.row 0).size != run.dim || (bestX.row 0).size != run.dim then
        throw (.fault .value)
      let X ← glide settings run velocity bestX
      update (·.moveAll X)) := by
  simp only [fly, glide, bind_assoc]
  refine bind_congr fun _ => bind_congr fun _ => bind_congr fun run => bind_congr fun velocity =>
    bind_congr fun bestX => ?_
  split <;> rfl

/-- All velocities are noted before any particle moves. -/
theorem run_glide (settings : Settings) (run : Run α P) (velocity bestX : Rows α)
    (s : Run α P × Session σ) :
    (glide settings run velocity bestX).run s =
      match (perIndividual (accelerate settings run velocity bestX)).run s with
      | (.ok V, s') => (.ok (Array.zipWith moved s'.1.X V), s'.1.remember .velocity V, s'.2)
      | (.error e, s') => (.error e, s') := by
  rw [glide, run_bind]
  rcases (perIndividual (accelerate settings run velocity bestX)).run s with ⟨_ | V, s'⟩ <;> rfl

theorem zipWith_moved {X : Rows α} {n : Nat} (size : X.size = n) (out : Nat → Row α) :
    Array.zipWith moved X ((Array.range n).map out) =
      (Array.range n).map fun i => moved (X.row i) (out i) := by
  apply Array.ext (by simp [size])
  intro i below _
  have inside : i < X.size := by simp at below; omega
  simp [Rows.row, inside]

section Tidiness

variable {s : Run α P × Session σ}

theorem prepare_tidy (h : s.1.Tidy) : KeepsTidy (prepare : Search σ α P Unit) s := by
  simp only [prepare, KeepsTidy, ends_bind, ends_update, ends_current, ends_ofExcept]
  have still (v : Row α) :
      ((s.1.remember .velocity (Array.replicate s.1.popSize v)).remember .bestX s.1.X).Tidy :=
    (h.remember .velocity fun _ => Array.size_replicate).remember .bestX fun same => by cases same
  exact ⟨fun F _ => (still _).remember .bestF (fun same => by cases same), fun _ _ => still _⟩

theorem updateBests_tidy (h : s.1.Tidy) : KeepsTidy (updateBests : Search σ α P Unit) s := by
  simp only [updateBests, KeepsTidy, ends_bind, ends_update, ends_current, ends_ofExcept, ends_ite,
    ends_throw]
  refine ⟨fun bestX _ => ⟨fun bestF _ => ⟨fun F _ => ⟨fun _ => h, fun _ => ?_⟩, fun _ _ => h⟩,
    fun _ _ => h⟩, fun _ _ => h⟩
  exact (h.remember .bestX fun same => by cases same).remember .bestF fun same => by cases same

theorem fly_tidy (h : s.1.Tidy) (settings : Settings) :
    KeepsTidy (fly settings : Search σ α P Unit) s := by
  simp only [fly, KeepsTidy, ends_bind, ends_update, ends_current, ends_ofExcept, ends_ite,
    ends_throw]
  apply (updateBests_tidy h).imp
  intro _ s₁ tidy₁
  have tidy : s₁.1.measureFront.Tidy := by
    obtain ⟨tracker, same⟩ := measureFront_eq s₁.1
    rw [same]
    exact ⟨tidy₁.positions, tidy₁.velocities⟩
  refine ⟨fun velocity _ => ⟨fun bestX _ => ⟨fun _ => tidy, fun _ => ?_⟩, fun _ _ => tidy⟩,
    fun _ _ => tidy⟩
  refine ((perIndividual_ends _).and_ensures (perIndividual_ensures _)).mono
    (fun s₂ drawn => tidy.redrawn drawn.1) ?_
  rintro V s₂ ⟨⟨drawn, -⟩, size, -⟩
  have popSize : s₂.1.popSize = s₁.1.measureFront.popSize := by
    obtain ⟨streams, same⟩ := drawn
    rw [same]
  exact ((tidy.redrawn drawn).remember .velocity fun _ => size.trans popSize.symm).moveAll _

/-- The swarm does not lose a velocity. -/
theorem step_tidy (h : s.1.Tidy) (settings : Settings) :
    KeepsTidy (step settings : Search σ α P Unit) s := by
  rw [step_eq]
  simp only [KeepsTidy, ends_bind, ends_current, ends_ite]
  exact ⟨fun _ => (prepare_tidy h).imp fun _ _ tidy => fly_tidy tidy settings,
    fun _ => fly_tidy h settings⟩

end Tidiness

section Independence

variable {run run' : Run α P} {s : Run α P × Session σ}

theorem follow_follows (i : Nat) :
    Follows (.individual i) (follow i : Search σ α P (Row α)) (leader s.1) s := by
  refine follows_current ?_
  unfold leader
  cases s.1.front? with
  | none => exact follows_ofExcept _
  | some front =>
    dsimp only
    by_cases empty : front.members.isEmpty = true
    · rw [if_pos empty, if_pos empty]
      exact follows_ofExcept _
    · rw [if_neg empty, if_neg empty, Front.tournament, if_neg empty]
      refine follows_bind (follows_draw _) fun a s₁ _ => ?_
      refine follows_bind (follows_draw _) fun b s₂ _ => ?_
      by_cases different : (a != b) = true
      · rw [if_pos different]
        have looked : Follows (.individual i)
            (update Run.measureFront >>= fun _ => pure (front.X.row (front.lessCrowded a b)))
            (pure () >>= fun _ => pure (front.X.row (front.lessCrowded a b))) s₂ :=
          follows_bind follows_measureFront fun _ _ _ => follows_pure _
        rwa [pure_bind] at looked
      · rw [if_neg different]
        exact follows_pure _

theorem leader_consulted (h : run.Consulted run') : leader run' = leader run := by
  unfold leader
  rw [h.bestX]
  rcases h.front_cases with ⟨none, none', -⟩ | ⟨front, crowding, found, found', same⟩
  · rw [none, none']
  · rw [found, found']
    have winner (a b : Nat) :
        Front.lessCrowded { front with crowding } a b = front.lessCrowded a b := by
      rw [Front.lessCrowded, Front.lessCrowded, same]
    simp only [Front.tournament, winner]
    rfl

/-- What a particle draws, from the velocities and best places that are noted. -/
def accelerateNoted (settings : Settings) (run : Run α P) (i : Nat) : Draw (Row α) :=
  accelerate settings run (velocities run) (bestPlaces run) i

theorem accelerateNow_follows (settings : Settings) (i : Nat) :
    Follows (.individual i) (accelerateNow settings i : Search σ α P (Row α))
      (accelerateNoted settings s.1 i) s := by
  refine follows_bind (follow_follows i) fun leader s₁ consulted₁ => follows_current ?_
  have dim₁ : s₁.1.dim = s.1.dim := by
    obtain ⟨_, _, same, -⟩ := consulted₁
    rw [same]
    rfl
  rw [dim₁]
  refine follows_bind (follows_draw _) fun toOwn s₂ consulted₂ => follows_current ?_
  have consulted₂ := consulted₁.trans consulted₂
  have dim₂ : s₂.1.dim = s.1.dim := by
    obtain ⟨_, _, same, -⟩ := consulted₂
    rw [same]
    rfl
  rw [dim₂]
  refine follows_bind (follows_draw _) fun toLeader s₃ consulted₃ => follows_current ?_
  obtain ⟨_, _, same, -⟩ := consulted₂.trans consulted₃
  rw [same]
  exact follows_pure _

/-- A particle does not see the velocity of another one. -/
theorem accelerateNoted_turn (settings : Settings) (run : Run α P) {i j : Nat}
    (different : i ≠ j) (v : Row α) :
    accelerateNoted settings (turn j v run) i = accelerateNoted settings run i := by
  have row : (velocities (turn j v run)).row i = (velocities run).row i := by
    unfold velocities turn
    cases run.swarm.velocity with
    | none => rfl
    | some V => simp [Rows.row, Array.getD_eq_getD_getElem?, Ne.symm different]
  have leader : leader (turn j v run) = leader run := rfl
  simp only [accelerateNoted, accelerate, row, leader]
  rfl

theorem independent_round (settings : Settings) :
    (round settings : Round σ α P (Row α)).Independent (accelerateNoted settings) where
  follows _ i := accelerateNow_follows settings i
  draws_consulted h := by
    have leader := leader_consulted h
    obtain ⟨_, _, rfl, -⟩ := h
    funext i
    simp only [accelerateNoted, accelerate, leader]
    rfl
  draws_leaves run i j different v := accelerateNoted_turn settings run different v
  builds_consulted h := by
    obtain ⟨_, _, rfl, -⟩ := h
    rfl
  builds_leaves _ _ _ := rfl
  leaves_consulted h i v := by
    obtain ⟨streams, tracker, rfl, same⟩ := h
    exact ⟨streams, tracker, rfl, same⟩
  leaves_comm run i j different v w := by
    simp only [round, turn, Option.map_map]
    congr 3
    funext V
    exact Array.setIfInBounds_comm _ _ different.symm
  leaves_streams _ _ _ := rfl

theorem settles_leader (run : Run α P) : ∃ verdict, (leader run).Settles verdict := by
  unfold leader
  split
  next =>
    split
    next => exact ⟨_, settles_ofExcept _⟩
    next filled => exact ⟨_, settles_of_succeeds (Front.succeeds_tournament filled)⟩
  next => exact ⟨_, settles_ofExcept _⟩

theorem settles_accelerate (settings : Settings) (run : Run α P) :
    ∃ verdict, ∀ i < run.popSize, (accelerateNoted settings run i).Settles verdict := by
  obtain ⟨_, leader⟩ := settles_leader run
  have units := settles_of_succeeds (succeeds_times succeeds_unit run.dim)
  exact ⟨_, fun i _ => settles_bind leader fun _ => settles_bind units fun _ =>
    settles_bind units fun _ => settles_pure _⟩

/-- In the end the velocities of all particles are overwritten. -/
theorem leavesAll_round (settings : Settings) (out : Nat → Row α) (order : List Nat)
    (run : Run α P) :
    (round settings : Round σ α P (Row α)).leavesAll out order run =
      { run with swarm.velocity := run.swarm.velocity.map fun V =>
        order.foldl (fun V i => V.setIfInBounds i (out i)) V } := by
  induction order generalizing run with
  | nil => simp [Round.leavesAll]
  | cons i order ih =>
    have rest := ih (turn i (out i) run)
    simp only [turn, Option.map_map] at rest
    exact rest

end Independence

end Swarm

/-- Two states of a search: all streams are in the same states, the swarm remembers the same, the
front has the same members, and the rest is the same but for crowding distances at hand. -/
structure SameStates (s s' : Run α P × Session σ) : Prop where
  streams (id : StreamId) : s.1.streams.get id = s'.1.streams.get id
  swarm : s.1.swarm = s'.1.swarm
  members : s.1.front?.map (·.members) = s'.1.front?.map (·.members)
  rest : s.1.Consulted s'.1
  session : s.2 = s'.2

/-- The same was built: the failures are the same, or the candidates are, and so are the states. -/
structure SameBuilt (o o' : Except Error (Rows α) × Run α P × Session σ) : Prop where
  candidates : o.1 = o'.1
  states : ∀ X, o.1 = .ok X → SameStates o.2 o'.2

section Built

variable {s s' : Run α P × Session σ} {o : Except Error (Rows α) × Run α P × Session σ}

theorem sameStates_of_consulted (streams : ∀ id, s.1.streams.get id = s'.1.streams.get id)
    (consulted : s.1.Consulted s'.1) (session : s.2 = s'.2) : SameStates s s' where
  streams := streams
  swarm := by
    obtain ⟨_, _, same, -⟩ := consulted
    rw [same]
  members := consulted.members.symm
  rest := consulted
  session := session

/-- Where nobody leaves anything, the candidates are what is drawn. -/
theorem sameBuilt_ofDraws {draws : Run α P → Nat → Draw (Row α)}
    {o' : Except Error (Rows α) × Run α P × Session σ}
    (h : (Round.ofDraws draws).Outcome s o o') : SameBuilt o o' := by
  cases h with
  | fails e s₁ s₂ => exact ⟨rfl, nofun⟩
  | succeeds out s₁ s₂ left redrawn streams session =>
    have nothing : (Round.ofDraws draws : Round σ α P (Row α)).leavesAll out
        (List.range s.1.popSize) s.1 = s.1 :=
      List.foldl_fixed _
    rw [nothing] at left
    refine ⟨rfl, fun _ _ => sameStates_of_consulted streams ?_ session⟩
    exact left.symm.trans (Run.consulted_of_redrawn redrawn)

/-- The velocities that are overwritten one by one are those that a flight notes at once. -/
theorem sameBuilt_glide {settings : Swarm.Settings} {velocity bestX : Rows α} (tidy : s.1.Tidy)
    (noted : s.1.remembered .velocity = .ok velocity) (best : s.1.remembered .bestX = .ok bestX)
    (h : (Swarm.round settings).Outcome s o
      ((perIndividual (Swarm.accelerateNoted settings s.1) : Search σ α P (Rows α)).run s)) :
    SameBuilt o ((Swarm.glide settings s.1 velocity bestX).run s) := by
  have noted : s.1.swarm.velocity = some velocity := Swarm.remembered_eq noted
  have best : s.1.swarm.bestX = some bestX := Swarm.remembered_eq best
  obtain ⟨size, -⟩ := tidy.velocities velocity noted
  have same : Swarm.accelerateNoted settings s.1 =
      Swarm.accelerate settings s.1 velocity bestX := by
    funext i
    simp [Swarm.accelerateNoted, Swarm.velocities, Swarm.bestPlaces, noted, best]
  rw [same] at h
  rw [Swarm.run_glide]
  generalize (perIndividual (Swarm.accelerate settings s.1 velocity bestX) :
    Search σ α P (Rows α)).run s = drawn at h ⊢
  cases h with
  | fails e s₁ s₂ => exact ⟨rfl, nofun⟩
  | succeeds out s₁ s₂ left redrawn streams session =>
    have tidy₂ := tidy.redrawn redrawn
    obtain ⟨streams₂, same₂⟩ := redrawn
    have noted₂ : s₂.1.swarm.velocity = some velocity := by rw [same₂, noted]
    have positions : s₂.1.X.size = s.1.popSize := by rw [same₂, tidy.positions]
    have turned : (Swarm.round settings : Round σ α P (Row α)).leavesAll out
        (List.range s.1.popSize) s.1 =
        { s.1 with swarm.velocity := some ((Array.range s.1.popSize).map out) } := by
      rw [Swarm.leavesAll_round, noted, Option.map_some, foldl_set_perm (by rw [size]), size]
    rw [turned] at left
    dsimp only
    rw [tidy₂.remember_velocity noted₂, Swarm.zipWith_moved positions, same₂]
    refine ⟨rfl, fun X _ => sameStates_of_consulted (fun id => ?_) ?_ session⟩
    · rw [streams id, same₂]
    · exact left.symm.trans ⟨_, _, rfl, .refl _⟩

end Built

/-- A flight has a leader for everybody as soon as the run has a best point. -/
theorem Swarm.glide_succeeds {s : Run Float P × Session σ} (best : s.1.hasBest = true)
    (settings : Swarm.Settings) (velocity bestX : Rows Float) :
    ∃ X s', (glide settings s.1 velocity bestX).run s = (.ok X, s') := by
  have units := succeeds_times succeeds_unit s.1.dim
  have pulls : ∀ i < s.1.popSize, (accelerate settings s.1 velocity bestX i).Succeeds :=
    fun i _ => yields_bind (Swarm.succeeds_leader best) fun _ _ => yields_bind units fun _ _ =>
      yields_bind units fun _ _ => yields_pure trivial
  obtain ⟨drawn, s₁, ran, -⟩ := exists_of_ends (perIndividual_yields (σ := σ) pulls)
  rw [glide, run_bind, ran]
  exact ⟨_, _, rfl⟩

section AnyOrder

variable {s : Run α P × Session σ} {order : List Nat} {blank : Rows α}

/-- Whatever the order in which the individuals are visited, and whatever stands in the matrix that
they fill: differential evolution, the swarm and both phases of the teaching strategy build what
they build in the order of the indices. The candidates are the same, the velocities, the front and
the states of all streams, or else the failure. The mean of the class and the fitness that learners
are compared by may be any, as they are fixed before anyone is visited. -/
theorem candidates_in_any_order (perm : order.Perm (List.range s.1.popSize))
    (size : blank.size = s.1.popSize) :
    (∀ settings, SameBuilt
      (((Differential.round settings).candidates order blank).run s)
      ((perIndividual (Differential.trial settings s.1)).run s)) ∧
    (s.1.Tidy → ∀ settings velocity bestX, s.1.remembered .velocity = .ok velocity →
      s.1.remembered .bestX = .ok bestX → SameBuilt
        (((Swarm.round settings).candidates order blank).run s)
        ((Swarm.glide settings s.1 velocity bestX).run s)) ∧
    (∀ mean, SameBuilt
      (((Teaching.teacherRound mean).candidates order blank).run s)
      ((perIndividual (Teaching.teach s.1 mean)).run s)) ∧
    ∀ F, SameBuilt
      (((Teaching.learnerRound s.1 F).candidates order blank).run s)
      ((perIndividual (Teaching.learn s.1 F)).run s) := by
  refine ⟨fun settings => ?_, fun tidy settings velocity bestX noted best => ?_, fun mean => ?_,
    fun F => ?_⟩
  · have ind : (Differential.round settings : Round σ α P (Row α)).Independent
        (Differential.trial settings) :=
      Round.independent_ofDraws fun _ _ h => Differential.trial_consulted settings h
    exact sameBuilt_ofDraws (ind.outcome (Differential.settles_trial settings s.1) perm size)
  · have ind := Swarm.independent_round (σ := σ) (P := P) (α := α) settings
    exact sameBuilt_glide tidy noted best
      (ind.outcome (Swarm.settles_accelerate settings s.1) perm size)
  · have ind : (Teaching.teacherRound mean : Round σ α P (Row α)).Independent
        (fun run => Teaching.teach run mean) :=
      Round.independent_ofDraws fun _ _ h => Teaching.teach_consulted _ h
    exact sameBuilt_ofDraws (ind.outcome (Teaching.settles_teach s.1 mean) perm size)
  · have ind : (Teaching.learnerRound s.1 F : Round σ α P (Row α)).Independent
        (fun _ => Teaching.learn s.1 F) :=
      Round.independent_ofDraws fun _ _ _ => rfl
    exact sameBuilt_ofDraws (ind.outcome (Teaching.settles_learn s.1 F) perm size)

/-- Four points with two objectives, none of which dominates another. -/
def fourRated : Run Float Nat × Session Unit :=
  ((Run.Call.perform Run.fromBorders .updateBest).run
    ((Run.Call.perform Run.fromBorders .evaluateAll).run
      ((Run.Call.perform Run.fromBorders
          (.setPositions ⟨[4, 1], #[0.125, 0.25, 0.5, 0.75]⟩ none)).run
        (.start .unitInterval 4 none .absent 0, ⟨(), #[]⟩)).2).2).2

/-- The four points as particles at rest. -/
def flock : Run Float Nat × Session Unit :=
  ((fourRated.1.note "velocity" (.array ⟨[4, 1], #[0.0, 0.0, 0.0, 0.0]⟩)).note "pbest_X"
    (.array ⟨[4, 1], #[0.125, 0.25, 0.5, 0.75]⟩), fourRated.2)

theorem flock_handled : Run.Handled Run.fromBorders flock :=
  .noted (.noted (.called (.called (.called (.start .unitInterval 4 none .absent 0 ⟨(), #[]⟩) _) _)
    _) _ _) _ _

/-- A round that begins with the third of the four and ends with the second. -/
def thirdFirst (r : Round Unit Float Nat (Row Float)) :
    Except Error (Rows Float) × Run Float Nat × Session Unit :=
  (r.candidates [2, 0, 3, 1] #[#[], #[], #[], #[]]).run flock

/-- The particles have a front to choose their leaders from, and nothing fails. -/
theorem candidates_in_any_order_flock :
    flock.1.front?.any (·.size == 4) = true ∧
    (SameBuilt (thirdFirst (Differential.round {}))
        ((perIndividual (Differential.trial {} flock.1)).run flock) ∧
      (thirdFirst (Differential.round {})).1.toBool = true) ∧
    (∃ velocity bestX, SameBuilt (thirdFirst (Swarm.round {}))
        ((Swarm.glide {} flock.1 velocity bestX).run flock) ∧
      (thirdFirst (Swarm.round {})).1.toBool = true) ∧
    (∃ mean, SameBuilt (thirdFirst (Teaching.teacherRound mean))
        ((perIndividual (Teaching.teach flock.1 mean)).run flock) ∧
      (thirdFirst (Teaching.teacherRound mean)).1.toBool = true) ∧
    ∃ F, SameBuilt (thirdFirst (Teaching.learnerRound flock.1 F))
        ((perIndividual (Teaching.learn flock.1 F)).run flock) ∧
      (thirdFirst (Teaching.learnerRound flock.1 F)).1.toBool = true := by
  have perm : [2, 0, 3, 1].Perm (List.range flock.1.popSize) := by decide +kernel
  have size : (#[#[], #[], #[], #[]] : Rows Float).size = flock.1.popSize := by decide +kernel
  have noted : flock.1.swarm.velocity.isSome = true := by decide +kernel
  have best : flock.1.swarm.bestX.isSome = true := by decide +kernel
  obtain ⟨velocity, noted⟩ := Option.isSome_iff_exists.mp noted
  obtain ⟨bestX, best⟩ := Option.isSome_iff_exists.mp best
  obtain ⟨trials, flight, taught, learnt⟩ := candidates_in_any_order perm size
  have flight := flight (Run.handled_tidy flock_handled) {} velocity bestX
    (Swarm.remembered_of_get noted) (Swarm.remembered_of_get best)
  refine ⟨by decide +kernel, ⟨trials {}, by decide +kernel⟩, ⟨velocity, bestX, flight, ?_⟩,
    ⟨Rows.meanRow flock.1.dim flock.1.X, taught _, by decide +kernel⟩,
    ⟨flock.1.F.getD #[], learnt _, by decide +kernel⟩⟩
  obtain ⟨X, s', glided⟩ := Swarm.glide_succeeds (s := flock) (by decide +kernel) {} velocity bestX
  have same : (thirdFirst (Swarm.round {})).1 = _ := flight.candidates
  rw [same, glided]
  rfl

end AnyOrder

end BoxSearch
