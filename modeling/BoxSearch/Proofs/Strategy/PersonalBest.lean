import BoxSearch.Proofs.Scalar.Symmetric
import BoxSearch.Proofs.Settings.Checked
import BoxSearch.Proofs.Strategy.Competition
import BoxSearch.Proofs.Strategy.Progress

/-!
What the particles of a swarm remember, and how far they fly.

With a single objective a particle remembers the last of its places that has the least fitness: it
takes a new place for its best one whenever that is not worse. Its memory lags behind, as the fitness
of a place is found after the flight to it. A flight begins by looking at the fitness of the places
where the particles are, and every particle then moves by its new velocity, which has been brought
down to the limit.
-/

namespace BoxSearch

open Search Scalar OrderedScalar

variable {σ P : Type}

namespace Swarm

section Memory

variable {best : Row Float × Row Float} {places : List (Row Float × Row Float)} {n : Nat}

/-- Of some places with their fitness, this is the last one that has the least fitness. -/
def LastLeast (best : Row Float × Row Float) (places : List (Row Float × Row Float)) : Prop :=
  ∃ before after, places = before ++ best :: after ∧
    (∀ p ∈ before, best.2.gene 0 ≤ p.2.gene 0) ∧ ∀ p ∈ after, best.2.gene 0 < p.2.gene 0

theorem lastLeast_singleton (place : Row Float × Row Float) : LastLeast place [place] :=
  ⟨[], [], rfl, nofun, nofun⟩

theorem LastLeast.le (h : LastLeast best places) (single : best.2.Single) :
    ∀ p ∈ places, best.2.gene 0 ≤ p.2.gene 0 := by
  obtain ⟨before, after, rfl, early, late⟩ := h
  intro p hp
  rcases List.mem_append.mp hp with first | rest
  · exact early p first
  · rcases List.mem_cons.mp rest with rfl | last
    · exact single.le_self
    · exact le_of_lt (late p last)

/-- One more place: it is the best one if it is not worse than the best one so far. -/
theorem LastLeast.look (h : LastLeast best places) (single : best.2.Single)
    (new : Row Float × Row Float) (single' : new.2.Single) :
    LastLeast (if new.2.gene 0 ≤ best.2.gene 0 then new else best) (places ++ [new]) := by
  split
  case isTrue le => exact ⟨places, [], rfl, fun p hp => le_trans le (h.le single p hp), nofun⟩
  case isFalse worse =>
    have lt := (lt_or_le single.le_self single'.le_self).resolve_right worse
    obtain ⟨before, after, rfl, early, late⟩ := h
    refine ⟨before, after ++ [new], by simp, early, fun p hp => ?_⟩
    rcases List.mem_append.mp hp with old | last
    · exact late p old
    · obtain rfl := List.mem_singleton.mp last
      exact lt

/-- Over a series of populations of `n` particles, these are the last best places of each. -/
def PersonalBests (n : Nat) (visits : List (Run Float P)) (bestX bestF : Rows Float) : Prop :=
  ∀ i < n, ∃ places, visits.map (·.holder i) = places.map some ∧
    LastLeast (bestX.row i, bestF.row i) places

variable {run : Run Float P} {earlier : List (Run Float P)} {F X bestX bestF : Rows Float}

/-- A place that is not worse than the best place so far is taken for it. -/
theorem remember_row (single : F.Single) (singleBest : bestF.Single) (sizeF : F.size = n)
    (sizeX : bestX.size = n) (sizeBest : bestF.size = n) {i : Nat} (inside : i < n) :
    ((remember X F bestX bestF).1.row i, (remember X F bestX bestF).2.row i) =
      if (F.row i).gene 0 ≤ (bestF.row i).gene 0 then (X.row i, F.row i)
      else (bestX.row i, bestF.row i) := by
  have insideF : i < F.size := by rwa [sizeF]
  have insideBest : i < bestF.size := by rwa [sizeBest]
  have verdict : (Dominance.notWorseRows F bestF).getD i false =
      decide ((F.row i).gene 0 ≤ (bestF.row i).gene 0) := by
    rw [Array.getD_eq_getD_getElem?, Dominance.notWorseRows_single insideF insideBest
      (single.row insideF) (singleBest.row insideBest)]
    rfl
  rw [row_remember (by rwa [sizeX]) insideBest, verdict]
  simp only [decide_eq_true_eq]

theorem single_remember (single : F.Single) (singleBest : bestF.Single) (sizeF : F.size = n)
    (sizeX : bestX.size = n) (sizeBest : bestF.size = n) :
    (remember X F bestX bestF).2.Single := by
  intro f hf
  obtain ⟨i, inside, rfl⟩ := Rows.exists_row hf
  have below : i < n := by simpa [remember, sizeBest] using inside
  have row := congrArg Prod.snd (remember_row (X := X) single singleBest sizeF sizeX sizeBest below)
  dsimp only at row
  rw [row]
  split
  · exact single.row (by rwa [sizeF])
  · exact singleBest.row (by rwa [sizeBest])

/-- Particles that have been to one place only remember that. -/
theorem personalBests_first (scored : run.Scored F) (positions : run.X.size = run.popSize) :
    PersonalBests run.popSize [run] (remember run.X F run.X F).1 (remember run.X F run.X F).2 := by
  intro i inside
  have insideF : i < F.size := by rwa [scored.size]
  refine ⟨[(run.X.row i, F.row i)], by simp [Run.holder_eq scored.known], ?_⟩
  rw [remember_row scored.single scored.single scored.size positions scored.size inside,
    if_pos (scored.single.row insideF).le_self]
  exact lastLeast_singleton _

theorem PersonalBests.look (h : PersonalBests run.popSize earlier bestX bestF)
    (scored : run.Scored F) (singleBest : bestF.Single) (sizeX : bestX.size = run.popSize)
    (sizeBest : bestF.size = run.popSize) :
    PersonalBests run.popSize (earlier ++ [run]) (remember run.X F bestX bestF).1
      (remember run.X F bestX bestF).2 := by
  intro i inside
  have insideF : i < F.size := by rwa [scored.size]
  have insideBest : i < bestF.size := by rwa [sizeBest]
  obtain ⟨places, visited, last⟩ := h i inside
  refine ⟨places ++ [(run.X.row i, F.row i)], by simp [visited, Run.holder_eq scored.known], ?_⟩
  rw [remember_row scored.single singleBest scored.size sizeX sizeBest inside]
  exact last.look (singleBest.row insideBest) (run.X.row i, F.row i) (scored.single.row insideF)

end Memory

section Flight

variable {settings : Settings} {s : Run Float P × Session σ} {F velocity bestX bestF : Rows Float}

/-- What a swarm is said to remember is all that it remembers. -/
theorem updateBests_ensures (memory : s.1.swarm = ⟨some velocity, some bestX, some bestF⟩)
    (known : s.1.F = some F) (quiet : s.1.remarks = []) :
    Ensures (updateBests : Search σ Float P Unit) s fun _ s' =>
      s' = ({ s.1 with swarm := ⟨some velocity, some (remember s.1.X F bestX bestF).1,
        some (remember s.1.X F bestX bestF).2⟩ }, s.2) := by
  have foundX : s.1.remembered .bestX = .ok bestX := remembered_of_get (by rw [memory]; rfl)
  have foundF : s.1.remembered .bestF = .ok bestF := remembered_of_get (by rw [memory]; rfl)
  have stored : s.1.fitness = .ok F := by rw [Run.fitness, known]
  simp only [updateBests, ensures_bind, ensures_current, ensures_ofExcept, ensures_ite,
    ensures_throw, ensures_update, foundX, foundF, stored, remember_eq, Memory.set, memory, quiet]
  rintro _ ⟨⟩ _ ⟨⟩ _ ⟨⟩
  exact ⟨fun _ => trivial, fun _ => rfl⟩

/-- A number within a limit, to both sides. -/
def Within (limit v : Float) : Prop :=
  -limit ≤ v ∧ v ≤ limit

/-- A velocity that was brought down to a limit is within it, unless it is not a number. -/
theorem within_limited {limit u : Row Float} {j : Nat} (inside : j < u.size)
    (nonneg : Scalar.zero ≤ limit.gene j) (number : isNaN ((limited limit u).gene j) = false) :
    Within (limit.gene j) ((limited limit u).gene j) := by
  rw [limited, Row.gene_tabulate _ _ inside] at number ⊢
  apply clamp_mem _ (Binary.neg_le_self nonneg)
  cases nan : isNaN (u.gene j) with
  | false => rfl
  | true => rwa [clamp_eq_self nan, nan] at number

theorem gene_topVelocity (bounds : Bounds Float) {j : Nat} (inside : j < bounds.dim) :
    (topVelocity settings bounds).gene j = settings.vmaxFraction * bounds.span.gene j := by
  have below : j < bounds.span.size := by simpa [Bounds.span] using inside
  simp [topVelocity, Row.gene, below, Scalar.ofFloat]

/-- The box has a length in every dimension that is at least zero, so that a velocity of zero is
always within the limit. -/
theorem topVelocity_nonneg (checked : (BoxSearch.Settings.swarm settings).Checked)
    (bounds : Bounds Float) {j : Nat} (inside : j < bounds.dim) :
    Scalar.zero ≤ (topVelocity settings bounds).gene j := by
  obtain ⟨positive, small⟩ := checked.vmaxFraction_mem
  obtain ⟨low, high⟩ := bounds.finite j inside
  have zero : Scalar.isFinite (0.0 : Float) = true := by decide +kernel
  have one : Scalar.isFinite (1.0 : Float) = true := by decide +kernel
  have finite : Scalar.isFinite settings.vmaxFraction = true :=
    isFinite_of_between zero one (le_of_lt positive) small
  rw [gene_topVelocity bounds inside, Bounds.span, Row.gene_tabulate _ _ inside]
  exact Binary.mul_nonneg positive finite
    (SignedScalar.sub_nonneg high low (bounds.ordered j inside))

/-- The velocity of a particle was brought down to the limit. -/
theorem limited_of_accelerate {run : Run Float P} {i : Nat} {v : Row Float}
    {g g' : Random.Generator}
    (h : (accelerate settings run velocity bestX i).run g = (.ok v, g')) :
    ∃ u : Row Float, u.size = (run.X.row i).size ∧
      v = limited (topVelocity settings run.bounds) u := by
  rw [accelerate] at h
  obtain ⟨_, _, _, h⟩ := of_run_bind h
  obtain ⟨_, _, _, h⟩ := of_run_bind h
  obtain ⟨_, _, _, h⟩ := of_run_bind h
  cases h
  exact ⟨_, Row.size_tabulate _ _, rfl⟩

/-- A flight of the particles, all of which move by their new velocities and are kept in the box. A
velocity is within a part of the box, in so far as it is a number. The best places are left as they
are, and so is the fitness, which is that of the places where the flight began. -/
structure Flown (settings : Settings) (run run' : Run Float P) (velocity bestX bestF : Rows Float) :
    Prop where
  memory : run'.swarm = ⟨some velocity, some bestX, some bestF⟩
  velocities : velocity.Shaped run.popSize run.dim
  slow : ∀ v ∈ velocity, ∀ j < run.dim, isNaN (v.gene j) = false →
    Within (settings.vmaxFraction * run.bounds.span.gene j) (v.gene j)
  positions : ∀ i < run.popSize,
    run'.X.row i = run.bounds.clip (moved (run.X.row i) (velocity.row i))
  fitness : run'.F = run.F

/-- A swarm that knows its best places flies off. -/
theorem launch_flown {known : Option (Rows Float)}
    (checked : (BoxSearch.Settings.swarm settings).Checked)
    (memory : s.1.swarm = ⟨known, some bestX, some bestF⟩)
    (positions : s.1.X.Shaped s.1.popSize s.1.dim) (V B : Rows Float) :
    Ensures (do
      let velocity ← perIndividual (accelerate settings s.1 V B)
      update fun run => (run.remember .velocity velocity).moveAll (Array.zipWith moved run.X velocity))
      s fun _ s' => ∃ velocity, Flown settings s.1 s'.1 velocity bestX bestF := by
  simp only [ensures_bind, ensures_update]
  have slow : Ensures (perIndividual (accelerate settings s.1 V B) : Search σ Float P _) s
      fun drawn _ => ∀ v ∈ drawn, ∃ u : Row Float, u.size = s.1.dim ∧
        v = limited (topVelocity settings s.1.bounds) u :=
    perIndividual_all fun i inside v g drew => by
      obtain ⟨u, size, same⟩ := limited_of_accelerate drew
      exact ⟨u, size.trans (positions.row inside), same⟩
  refine ((perIndividual_ensures _).and slow).mono fun velocity s₁ drawn => ⟨velocity, ?_⟩
  obtain ⟨⟨size, streams, same⟩, limits⟩ := drawn
  have moves : (Array.zipWith moved s.1.X velocity).size = s.1.popSize := by
    rw [Array.size_zipWith, size, positions.size, Nat.min_self]
  rw [same]
  refine ⟨?_, ⟨size, fun v hv => ?_⟩, fun v hv j inside number => ?_, fun i inside => ?_, rfl⟩
  · change s.1.swarm.set .velocity (some velocity) = _
    rw [memory]
    rfl
  · obtain ⟨u, width, rfl⟩ := limits v hv
    rwa [limited, Row.size_tabulate]
  · obtain ⟨u, width, rfl⟩ := limits v hv
    rw [← gene_topVelocity _ inside]
    exact within_limited (by rwa [width]) (topVelocity_nonneg checked _ inside) number
  · have insideX : i < s.1.X.size := by rwa [positions.size]
    have insideV : i < velocity.size := by rwa [size]
    change Rows.row (writeAt s.1.X (List.range s.1.popSize)
      (s.1.bounds.clipRows (Array.zipWith moved s.1.X velocity))) i = _
    rw [writeAt_range positions.size (by rw [Bounds.size_clipRows, moves])]
    simp [Bounds.clipRows, Rows.row, insideX, insideV]

/-- A flight begins with a look at the fitness of the population. -/
theorem fly_flown (checked : (BoxSearch.Settings.swarm settings).Checked)
    (memory : s.1.swarm = ⟨some velocity, some bestX, some bestF⟩) (known : s.1.F = some F)
    (quiet : s.1.remarks = []) (positions : s.1.X.Shaped s.1.popSize s.1.dim) :
    Ensures (fly settings) s fun _ s' => ∃ velocity' : Rows Float,
      Flown settings s.1 s'.1 velocity' (remember s.1.X F bestX bestF).1
        (remember s.1.X F bestX bestF).2 := by
  simp only [fly, ensures_bind, ensures_current, ensures_ofExcept, ensures_ite, ensures_throw]
  refine (updateBests_ensures memory known quiet).mono fun _ s₁ folded => ?_
  rw [ensures_update]
  refine fun V _ B _ => ⟨fun _ => trivial, fun _ => ?_⟩
  obtain ⟨tracker, measured⟩ := measureFront_eq s₁.1
  rw [folded] at measured
  have memory' : s₁.1.measureFront.swarm = ⟨some velocity, some (remember s.1.X F bestX bestF).1,
      some (remember s.1.X F bestX bestF).2⟩ := by
    rw [folded, measured]
  have positions' : s₁.1.measureFront.X.Shaped s₁.1.measureFront.popSize s₁.1.measureFront.dim := by
    rw [folded, measured]
    exact positions
  have launched := launch_flown (s := (s₁.1.measureFront, s₁.2)) checked memory' positions' V B
  rw [ensures_bind] at launched
  refine launched.mono fun _ s₂ flies => flies.mono fun _ s₃ flown => ?_
  obtain ⟨velocity', flown⟩ := flown
  rw [folded, measured] at flown
  exact ⟨velocity', flown.memory, flown.velocities, flown.slow, flown.positions, flown.fitness⟩

/-- The step of a swarm that is prepared is a flight. -/
theorem step_flown (checked : (BoxSearch.Settings.swarm settings).Checked)
    (memory : s.1.swarm = ⟨some velocity, some bestX, some bestF⟩) (known : s.1.F = some F)
    (quiet : s.1.remarks = []) (positions : s.1.X.Shaped s.1.popSize s.1.dim) :
    Ensures (step settings) s fun _ s' => ∃ velocity' : Rows Float,
      Flown settings s.1 s'.1 velocity' (remember s.1.X F bestX bestF).1
        (remember s.1.X F bestX bestF).2 := by
  have prepared : s.1.remembers .velocity = true := by simp [Run.remembers, Memory.get, memory]
  rw [step_eq]
  simp only [ensures_bind, ensures_current, ensures_ite, prepared]
  refine ⟨fun missing => ?_, fun _ => fly_flown checked memory known quiet positions⟩
  cases missing

/-- At first all particles are at rest, and at the best places they know. -/
theorem prepare_ensures (known : s.1.F = some F) (quiet : s.1.remarks = []) :
    Ensures (prepare : Search σ Float P Unit) s fun _ s' => ∃ velocity,
      s'.1 = { s.1 with swarm := ⟨some velocity, some s.1.X, some F⟩ } := by
  have stored : s.1.fitness = .ok F := by rw [Run.fitness, known]
  simp only [prepare, ensures_bind, ensures_current, ensures_ofExcept, ensures_update, remember_eq,
    Memory.set, quiet]
  intro G found
  have same : F = G := by
    change s.1.fitness = .ok G at found
    rw [stored] at found
    exact Except.ok.inj found
  rw [same]
  exact ⟨_, rfl⟩

end Flight

end Swarm

end BoxSearch
