import BoxSearch.Proofs.Kinship.Search
import BoxSearch.Proofs.Kinship.Variation
import BoxSearch.Proofs.Strategy.Agreement

/-!
Strategies on kin runs.

What a strategy makes of kin populations is kin: it compares fitness, which does not show the
difference, and computes new positions by sums, differences and products. So a generation goes
alongside a generation of a kin run.
-/

namespace BoxSearch

open Search

variable {σ : Type} {J : σ → σ → Prop} {R S : Float → Float → Prop} [Kinship R] [Kinship S]
  {P : Type} {box : Bounds Float} {k : Nat} {run run' : Run Float P} {x x' y y' : Row Float}

/-- Candidates with their fitness: kin places of kin fitness. -/
abbrev RatedKin (R S : Float → Float → Prop) (c c' : Row Float × Row Float) : Prop :=
  Related R c.1 c'.1 ∧ Related S c.2 c'.2

namespace Genetic

theorem firstWeaker_eq (hx : Related S x x') (hy : Related S y y') :
    firstWeaker x y = firstWeaker x' y' := by
  rw [firstWeaker, firstWeaker, Dominance.dominates_eq hx hy, Dominance.dominates_eq hy hx,
    Scalar.total_eq hx, Scalar.total_eq hy]

theorem cross_kin (s : Settings) (b : Bounds Float) (hx : Related R x x') (hy : Related R y y') :
    Alongside Eq (Variation.PairKin R) (cross s b x y) (cross s b x' y') := by
  rw [cross, cross]
  cases s.crossover with
  | blend => exact Variation.drawBlend_kin _ _ _ hx hy
  | simulatedBinary => exact Variation.drawSimulatedBinary_kin _ _ _ _ hx hy

theorem mutate_kin (s : Settings) (b : Bounds Float) (h : Related R x x') :
    Alongside Eq (Related R) (mutate s b x) (mutate s b x') := by
  rw [mutate, mutate]
  cases s.mutation with
  | gaussian => exact Variation.drawGaussian_kin _ _ _ _ h
  | polynomial => exact Variation.drawPolynomial_kin _ _ _ _ h

theorem firstDraws_kin (s : Settings) (b : Bounds Float) (hx : Related R x x')
    (hy : Related R y y') :
    Alongside Eq (Variation.PairKin R) (firstDraws s b x y) (firstDraws s b x' y') := by
  have mutated {p p' : Row Float × Row Float} (h : Variation.PairKin R p p') :
      Alongside Eq (Variation.PairKin R) (do return (← mutate s b p.1, p.2))
        (do return (← mutate s b p'.1, p'.2)) :=
    alongside_bind (mutate_kin s b h.1) fun _ _ child => alongside_pure ⟨child, h.2⟩
  apply alongside_bind (alongside_self _)
  rintro crosses _ rfl
  apply alongside_ite Iff.rfl
  · exact fun _ => alongside_bind (cross_kin s b hx hy) fun _ _ children => mutated children
  · exact fun _ => alongside_bind (alongside_pure ⟨hx, hy⟩) fun _ _ parents => mutated parents

/-- Families at the same places with kin children. -/
structure Family.Kin (R : Float → Float → Prop) (f f' : Family Float) : Prop where
  first : f.first = f'.first
  second : f.second = f'.second
  firstChild : Related R f.firstChild f'.firstChild
  secondChild : Related R f.secondChild f'.secondChild

theorem Family.Kin.isNew_eq {f f' : Family Float} (h : f.Kin R f') {X X' : Rows Float}
    (rows : Rows.Kin R X X') : f.isNew X = f'.isNew X' := by
  rw [Family.isNew, Family.isNew, h.first, h.second, Row.same_eq h.firstChild (rows.row _),
    Row.same_eq h.secondChild (rows.row _)]

omit [Kinship S] in
theorem breed_kin (s : Settings) (a b : Nat) :
    Alongside (KinStates (P := P) J R S box k) (Family.Kin R) (breed s a b) (breed s a b) := by
  apply kin_current
  intro run run' related
  dsimp only
  rw [related.bounds_eq]
  apply alongside_bind (kin_draw _ (firstDraws_kin s _ (related.X.row a) (related.X.row b)))
  intro children children' kin
  apply alongside_bind (kin_draw _ (mutate_kin s _ kin.2))
  exact fun _ _ second => alongside_pure ⟨rfl, rfl, kin.1, second⟩

theorem challenge_kin (h : run.Kin R S box k run') (a b : Nat) {c c' : Row Float × Row Float}
    (child : RatedKin R S c c') :
    (challenge a b run c).Kin R S box k (challenge a b run' c') := by
  have known := h.F
  rw [challenge, challenge]
  generalize run.F = F at known
  generalize run'.F = F' at known
  cases known with
  | none => exact h
  | some rated =>
    dsimp only
    rw [firstWeaker_eq (rated.row a) (rated.row b), Dominance.notWorse_eq child.2 (rated.row _)]
    generalize (if firstWeaker (α := Float) _ _ = true then a else b) = loser
    split
    · exact h.overwrite _ (.cons child.1 .nil) (.cons child.2 .nil)
    · exact h

theorem compete_kin (h : run.Kin R S box k run') (a b : Nat) {c c' d d' : Row Float × Row Float}
    (first : RatedKin R S c c') (second : RatedKin R S d d') :
    (compete run a b c d).Kin R S box k (compete run' a b c' d') := by
  rw [compete, compete, Dominance.notWorse_eq first.2 second.2]
  split
  · exact challenge_kin (challenge_kin h a b first) a b second
  · exact challenge_kin (challenge_kin h a b second) a b first

theorem competeAll_kin {families families' : List (Family Float)}
    (kin : List.Forall₂ (Family.Kin R) families families') {C C' FC FC' : Rows Float}
    (rows : Rows.Kin R C C') (rated : Rows.Kin S FC FC') (h : run.Kin R S box k run') :
    (competeAll families C FC run).Kin R S box k (competeAll families' C' FC' run') := by
  have child (i : Nat) : RatedKin R S (C.row i, FC.row i) (C'.row i, FC'.row i) :=
    ⟨rows.row i, rated.row i⟩
  refine List.rel_foldl (P := Run.Kin R S box k) ?_ h (forall₂_zipIdx kin 0)
  rintro run run' h ⟨family, i⟩ ⟨family', _⟩ ⟨same, rfl⟩
  dsimp only
  rw [same.first, same.second]
  exact compete_kin h _ _ (child _) (child _)

variable {e e' : Evaluator σ Float P}

theorem kin_step (kin : Evaluator.Kin J R S box e e') (s : Settings) :
    Alongside (KinStates J R S box k) (fun _ _ => True) (step s e) (step s e') := by
  apply kin_current
  intro start start' related
  dsimp only
  rw [related.popSize]
  apply alongside_bind (kin_draw _ (alongside_self _))
  rintro order _ rfl
  refine alongside_bind (alongside_mapM (Q := Family.Kin R) (fun pair => ?_) _) ?_
  · exact breed_kin s pair.1 pair.2
  intro families families' bred
  have fresh : List.Forall₂ (Family.Kin R) (families.filter (Family.isNew start.X))
      (families'.filter (Family.isNew start'.X)) :=
    List.rel_filter (fun _ _ family => iff_of_eq (congrArg (· = true) (family.isNew_eq related.X)))
      bred
  generalize families.filter (Family.isNew start.X) = families at fresh
  generalize families'.filter (Family.isNew start'.X) = families' at fresh
  have children : Rows.Kin R
      (families.flatMap fun family => [family.firstChild, family.secondChild]).toArray
      (families'.flatMap fun family => [family.firstChild, family.secondChild]).toArray :=
    List.rel_flatMap fresh fun _ _ family =>
      .cons family.firstChild (.cons family.secondChild .nil)
  have clipped := Bounds.clipRows_kin start'.bounds children
  apply alongside_ite (by rw [List.isEmpty_iff_length_eq_zero, List.isEmpty_iff_length_eq_zero,
    fresh.length_eq])
  · exact fun _ => kin_log _ _
  intro _
  rw [related.bounds_eq]
  apply alongside_bind (kin_evaluate kin clipped)
  intro FC FC' rated
  apply kin_current
  intro run run' later
  apply alongside_bind (alongside_ofExcept later.fitness)
  intro _ _ _
  exact kin_update fun run run' h => competeAll_kin fresh clipped rated h

end Genetic

namespace Differential

theorem combine_kin (mutant : Mutant) {f a a' best best' : Float} {v v' : Nat → Float}
    (ha : R a a') (hb : R best best') (hv : ∀ i, R (v i) (v' i)) :
    R (combine mutant f a best v) (combine mutant f a' best' v') := by
  have scaled {b b' : Float} (h : R b b') : R (f * b) (f * b') := Kinship.mul (Kinship.refl f) h
  have pairs : R (v 0 + v 1 - v 2 - v 3) (v' 0 + v' 1 - v' 2 - v' 3) :=
    Kinship.sub (Kinship.sub (Kinship.add (hv 0) (hv 1)) (hv 2)) (hv 3)
  cases mutant with
  | rand1 => exact Kinship.add (hv 0) (scaled (Kinship.sub (hv 1) (hv 2)))
  | rand2 => exact Kinship.add (hv 4) (scaled pairs)
  | best1 => exact Kinship.add hb (scaled (Kinship.sub (hv 0) (hv 1)))
  | currentToBest1 =>
    exact Kinship.add ha (scaled (Kinship.sub (Kinship.add (Kinship.sub hb ha) (hv 0)) (hv 1)))
  | best2 => exact Kinship.add hb (scaled pairs)

theorem mutate_kin (s : Settings) {best best' : Row Float} {donors donors' : Rows Float}
    (hx : Related R x x') (hb : Related R best best') (hd : Rows.Kin R donors donors') :
    Related R (mutate s x best donors) (mutate s x' best' donors') := by
  rw [mutate, mutate, hx.size_eq]
  exact .tabulate fun j _ => combine_kin _ (hx.gene j) (hb.gene j) fun i => (hd.row i).gene j

theorem crossed_kin (takes : Nat → Bool) (hx : Related R x x') (hy : Related R y y') :
    Related R (crossed takes x y) (crossed takes x' y') := by
  rw [crossed, crossed, hx.size_eq]
  refine .tabulate fun j _ => ?_
  split
  · exact hy.gene j
  · exact hx.gene j

theorem trial_kin (s : Settings) (h : run.Kin R S box k run') (i : Nat) :
    Alongside Eq (Related R) (trial s run i) (trial s run' i) := by
  have built {best best' : Row Float} (good : Related R best best') (donors : Array Nat) :
      Alongside Eq (Related R) (do
          let mutant := mutate s (run.X.row i) best (donors.map run.X.row)
          return crossed (← drawTakes s run.dim) (run.X.row i) mutant) (do
          let mutant := mutate s (run'.X.row i) best' (donors.map run'.X.row)
          return crossed (← drawTakes s run'.dim) (run'.X.row i) mutant) := by
    rw [h.dim_eq]
    apply alongside_bind (alongside_self _)
    rintro takes _ rfl
    have rows : Rows.Kin R (donors.map run.X.row) (donors.map run'.X.row) :=
      (Related.refl (fun _ => rfl) donors).map fun _ _ same => same ▸ h.X.row _
    exact alongside_pure (crossed_kin takes (h.X.row i) (mutate_kin s (h.X.row i) good rows))
  rw [trial, trial, h.popSize]
  apply alongside_bind (alongside_self _)
  rintro donors _ rfl
  apply alongside_ite Iff.rfl
  · exact fun _ => alongside_bind h.sampleLeader fun _ _ leader => built leader donors
  · exact fun _ => alongside_bind (alongside_pure .nil) fun _ _ none => built none donors

variable {e e' : Evaluator σ Float P}

theorem kin_step (kin : Evaluator.Kin J R S box e e') (s : Settings) :
    Alongside (KinStates J R S box k) (fun _ _ => True) (step s e) (step s e') := by
  apply kin_current
  intro start start' related
  apply alongside_bind (kin_perIndividual fun i => trial_kin s related i)
  intro trials trials' built
  dsimp only
  rw [related.bounds_eq]
  exact kin_evaluateAccept kin (Bounds.clipRows_kin _ built)

end Differential

namespace Teaching

theorem taught_kin {teacher teacher' mean mean' : Row Float} (draws : Row Float) (factor : Nat)
    (hx : Related R x x') (ht : Related R teacher teacher') (hm : Related R mean mean') :
    Related R (taught x teacher mean draws factor) (taught x' teacher' mean' draws factor) := by
  rw [taught, taught, hx.size_eq]
  refine .tabulate fun j _ => Kinship.add (hx.gene j) (Kinship.mul (Kinship.refl _) ?_)
  exact Kinship.sub (ht.gene j) (Kinship.mul (Kinship.refl _) (hm.gene j))

theorem towards_kin (draws : Row Float) (hx : Related R x x') (hy : Related R y y') :
    Related R (towards x y draws) (towards x' y' draws) := by
  rw [towards, towards, hx.size_eq]
  exact .tabulate fun j _ => Kinship.add (hx.gene j)
    (Kinship.mul (Kinship.refl _) (Kinship.sub (hy.gene j) (hx.gene j)))

theorem awayFrom_kin (draws : Row Float) (hx : Related R x x') (hy : Related R y y') :
    Related R (awayFrom x y draws) (awayFrom x' y' draws) := by
  rw [awayFrom, awayFrom, hx.size_eq]
  exact .tabulate fun j _ => Kinship.add (hx.gene j)
    (Kinship.mul (Kinship.refl _) (Kinship.sub (hx.gene j) (hy.gene j)))

theorem teach_kin (h : run.Kin R S box k run') {mean mean' : Row Float}
    (hm : Related R mean mean') (i : Nat) :
    Alongside Eq (Related R) (teach run mean i) (teach run' mean' i) := by
  rw [teach, teach, h.dim_eq]
  apply alongside_bind h.sampleLeader
  intro teacher teacher' leader
  apply alongside_bind (alongside_self _)
  rintro factor _ rfl
  apply alongside_bind (alongside_self _)
  rintro draws _ rfl
  exact alongside_pure (taught_kin _ _ (h.X.row i) leader hm)

theorem learn_kin (h : run.Kin R S box k run') {F F' : Rows Float} (rated : Rows.Kin S F F')
    (i : Nat) : Alongside Eq (Related R) (learn run F i) (learn run' F' i) := by
  rw [learn, learn, h.dim_eq, h.popSize]
  apply alongside_bind (alongside_self _)
  rintro partners _ rfl
  apply alongside_bind (alongside_self _)
  rintro draws _ rfl
  apply alongside_pure
  rw [Dominance.dominates_eq (rated.row _) (rated.row _)]
  split
  · exact towards_kin _ (h.X.row _) (h.X.row _)
  · exact awayFrom_kin _ (h.X.row _) (h.X.row _)

variable {e e' : Evaluator σ Float P}

theorem kin_teacherPhase (kin : Evaluator.Kin J R S box e e') :
    Alongside (KinStates J R S box k) (fun _ _ => True) (teacherPhase e) (teacherPhase e') := by
  apply kin_current
  intro run run' related
  have mean : Related R (Rows.meanRow run.dim run.X) (Rows.meanRow run'.dim run'.X) := by
    rw [related.dim_eq]
    exact Rows.meanRow_kin related.X _
  apply alongside_bind (kin_perIndividual fun i => teach_kin related mean i)
  intro candidates candidates' taught
  rw [related.bounds_eq]
  exact kin_evaluateAccept kin (Bounds.clipRows_kin _ taught)

theorem kin_learnerPhase (kin : Evaluator.Kin J R S box e e') :
    Alongside (KinStates J R S box k) (fun _ _ => True) (learnerPhase e) (learnerPhase e') := by
  apply kin_current
  intro run run' related
  apply alongside_bind (alongside_ofExcept related.fitness)
  intro F F' rated
  apply alongside_bind (kin_perIndividual fun i => learn_kin related rated i)
  intro candidates candidates' learnt
  rw [related.bounds_eq]
  exact kin_evaluateAccept kin (Bounds.clipRows_kin _ learnt)

theorem kin_step (kin : Evaluator.Kin J R S box e e') :
    Alongside (KinStates J R S box k) (fun _ _ => True) (step e) (step e') :=
  alongside_bind (kin_teacherPhase kin) fun _ _ _ => kin_learnerPhase kin

end Teaching

namespace Firefly

theorem attraction_eq (s : Settings) (hx : Related R x x') (hy : Related R y y') :
    attraction s x y = attraction s x' y' := by
  have squares (j : Nat) : R ((y.gene j - x.gene j) * (y.gene j - x.gene j))
      ((y'.gene j - x'.gene j) * (y'.gene j - x'.gene j)) :=
    have gap := Kinship.sub (hy.gene j) (hx.gene j)
    Kinship.mul gap gap
  have distance : squaredDistance x y = squaredDistance x' y' := by
    rw [squaredDistance, squaredDistance, hx.size_eq]
    exact Scalar.total_eq (Related.tabulate (S := R) fun j _ => squares j)
  rw [attraction, attraction, distance]

theorem stray_kin (step : Row Float) (h : Related R x x') :
    Related R (stray x step) (stray x' step) := by
  rw [stray, stray, h.size_eq]
  exact .tabulate fun j _ => Kinship.add (h.gene j) (Kinship.refl _)

theorem attracted_kin (s : Settings) (step : Row Float) (hx : Related R x x')
    (hy : Related R y y') : Related R (attracted s x y step) (attracted s x' y' step) := by
  rw [attracted, attracted, hx.size_eq, attraction_eq s hx hy]
  refine .tabulate fun j _ => Kinship.add (Kinship.add (hx.gene j) ?_) (Kinship.refl _)
  exact Kinship.mul (Kinship.refl _) (Kinship.sub (hy.gene j) (hx.gene j))

theorem brighter_eq {F F' : Rows Float} (h : Rows.Kin S F F') (i : Nat) :
    brighter F (F.row i) = brighter F' (F'.row i) := by
  rw [brighter, brighter, Dominance.dominatesRows_eq h (h.row i)]

theorem candidates_kin (s : Settings) (h : run.Kin R S box k run') {F F' : Rows Float}
    (rated : Rows.Kin S F F') (i : Nat) :
    Alongside Eq (List.Forall₂ (Related R)) (candidates s run F i) (candidates s run' F' i) := by
  rw [candidates, candidates, h.bounds_eq, h.dim_eq, h.generation, brighter_eq rated i]
  split
  · apply alongside_bind (alongside_self _)
    rintro step _ rfl
    exact alongside_pure (.cons (stray_kin step (h.X.row i)) .nil)
  · apply alongside_mapM
    intro j
    apply alongside_bind (alongside_self _)
    rintro step _ rfl
    exact alongside_pure (attracted_kin s step (h.X.row i) (h.X.row j))

omit [Kinship R] in
theorem walk_kin {l l' : List (Row Float × Row Float)} (start : Related S x x')
    (h : List.Forall₂ (RatedKin R S) l l') : Option.Rel (RatedKin R S) (walk x l) (walk x' l') := by
  refine (List.rel_foldl (P := fun (held held' : Row Float × Option (Row Float × Row Float)) =>
    Related S held.1 held'.1 ∧ Option.Rel (RatedKin R S) held.2 held'.2) ?_ ⟨start, .none⟩ h).2
  intro held held' same c c' kin
  dsimp only
  rw [Dominance.notWorse_eq kin.2 same.1]
  split
  · exact ⟨kin.2, .some kin⟩
  · exact same

theorem settleAll_kin {F F' C C' FC FC' : Rows Float} (rated : Rows.Kin S F F')
    (rows : Rows.Kin R C C') (fitness : Rows.Kin S FC FC') (counts : List Nat)
    (h : run.Kin R S box k run') :
    (settleAll F C FC counts run).Kin R S box k (settleAll F' C' FC' counts run') := by
  have own (start count : Nat) : List.Forall₂ (RatedKin R S)
      ((List.range count).map fun j => (C.row (start + j), FC.row (start + j)))
      ((List.range count).map fun j => (C'.row (start + j), FC'.row (start + j))) := by
    rw [List.forall₂_map_left_iff, List.forall₂_map_right_iff, List.forall₂_same]
    exact fun j _ => ⟨rows.row _, fitness.row _⟩
  refine (related_foldl (S := fun (acc acc' : Run Float P × Nat) =>
    acc.1.Kin R S box k acc'.1 ∧ acc.2 = acc'.2) (c := (run, 0)) (d := (run', 0)) ?_ counts.zipIdx
    ⟨h, rfl⟩).1
  rintro ⟨run, start⟩ ⟨run', _⟩ ⟨count, i⟩ ⟨h, rfl⟩
  have walked := walk_kin (rated.row i) (own start count)
  dsimp only at h ⊢
  generalize walk (F.row i) _ = found at walked
  generalize walk (F'.row i) _ = found' at walked
  cases walked with
  | none => exact ⟨h, rfl⟩
  | some kin => exact ⟨h.overwrite _ (.cons kin.1 .nil) (.cons kin.2 .nil), rfl⟩

variable {e e' : Evaluator σ Float P}

theorem kin_step (kin : Evaluator.Kin J R S box e e') (s : Settings) :
    Alongside (KinStates J R S box k) (fun _ _ => True) (step s e) (step s e') := by
  apply kin_current
  intro start start' related
  apply alongside_bind (alongside_ofExcept related.fitness)
  intro F F' rated
  apply alongside_bind (kin_perIndividual fun i => candidates_kin s related rated i)
  intro drawn drawn' each
  have rows : Rows.Kin R (drawn.toList.flatMap id).toArray (drawn'.toList.flatMap id).toArray :=
    List.rel_flatMap each fun _ _ candidates => candidates
  have counts : drawn.toList.map List.length = drawn'.toList.map List.length := by
    rw [← List.forall₂_eq_eq_eq]
    exact List.rel_map (fun _ _ candidates => candidates.length_eq) each
  have clipped := Bounds.clipRows_kin start'.bounds rows
  dsimp only
  rw [related.bounds_eq, counts]
  apply alongside_bind (kin_evaluate kin clipped)
  exact fun FC FC' fitness => kin_update fun run run' h =>
    settleAll_kin rated clipped fitness _ h

end Firefly

namespace Swarm

theorem limited_kin (limit : Row Float) (h : Related R x x') :
    Related R (limited limit x) (limited limit x') := by
  rw [limited, limited, h.size_eq]
  exact .tabulate fun j _ => Scalar.clamp_kin (h.gene j) (Kinship.refl _) (Kinship.refl _)

theorem pulled_kin (s : Settings) {velocity velocity' own own' leader leader' : Row Float}
    (toOwn toLeader : Row Float) (hv : Related R velocity velocity') (hx : Related R x x')
    (ho : Related R own own') (hl : Related R leader leader') :
    Related R (pulled s velocity x own leader toOwn toLeader)
      (pulled s velocity' x' own' leader' toOwn toLeader) := by
  simp only [pulled, hx.size_eq]
  refine .tabulate fun j _ => Kinship.add (Kinship.add ?_ ?_) ?_
  · exact Kinship.mul (Kinship.refl _) (hv.gene j)
  · exact Kinship.mul (Kinship.refl _) (Kinship.sub (ho.gene j) (hx.gene j))
  · exact Kinship.mul (Kinship.refl _) (Kinship.sub (hl.gene j) (hx.gene j))

theorem moved_kin (hx : Related R x x') (hy : Related R y y') :
    Related R (moved x y) (moved x' y') := by
  rw [moved, moved, hx.size_eq]
  exact .tabulate fun j _ => Kinship.add (hx.gene j) (hy.gene j)

omit [Kinship R] in
theorem remember_kin {X X' F F' bestX bestX' bestF bestF' : Rows Float} (hX : Rows.Kin R X X')
    (hF : Rows.Kin S F F') (hbX : Rows.Kin R bestX bestX') (hbF : Rows.Kin S bestF bestF') :
    Rows.Kin R (remember X F bestX bestF).1 (remember X' F' bestX' bestF').1 ∧
      Rows.Kin S (remember X F bestX bestF).2 (remember X' F' bestX' bestF').2 := by
  have chosen {S : Float → Float → Prop} (better : Array Bool) {new new' old old' : Rows Float}
      (hn : Rows.Kin S new new') (ho : Rows.Kin S old old') :
      Rows.Kin S
        ((Array.range old.size).map fun i => if better.getD i false then new.row i else old.row i)
        ((Array.range old'.size).map fun i =>
          if better.getD i false then new'.row i else old'.row i) := by
    rw [ho.size_eq]
    refine .tabulate fun i _ => ?_
    split
    · exact hn.row i
    · exact ho.row i
  rw [remember, remember, Dominance.notWorseRows_eq hF hbF]
  exact ⟨chosen _ hX hbX, chosen _ hF hbF⟩

omit [Kinship R] in
theorem leader_kin (h : run.Kin R S box k run') :
    Alongside Eq (Related R) (leader run) (leader run') := by
  have front := h.front?
  rw [leader, leader]
  generalize run.front? = s at front
  generalize run'.front? = s' at front
  cases front with
  | none => exact alongside_ofExcept h.bestX
  | some kin =>
    apply alongside_ite (by rw [kin.members.isEmpty_eq])
    · exact fun _ => alongside_ofExcept h.bestX
    · exact fun _ => kin.tournament

theorem accelerate_kin (s : Settings) (h : run.Kin R S box k run')
    {velocity velocity' bestX bestX' : Rows Float} (hv : Rows.Kin R velocity velocity')
    (hb : Rows.Kin R bestX bestX') (i : Nat) :
    Alongside Eq (Related R) (accelerate s run velocity bestX i)
      (accelerate s run' velocity' bestX' i) := by
  rw [accelerate, accelerate, h.dim_eq, h.bounds_eq]
  apply alongside_bind (leader_kin h)
  intro leader leader' best
  apply alongside_bind (alongside_self _)
  rintro toOwn _ rfl
  apply alongside_bind (alongside_self _)
  rintro toLeader _ rfl
  exact alongside_pure (limited_kin _ (pulled_kin s _ _ (hv.row i) (h.X.row i) (hb.row i) best))

omit [Kinship S] in
theorem kin_prepare :
    Alongside (KinStates (P := P) J R S box k) (fun _ _ => True) prepare prepare := by
  refine kin_update_bind (fun run run' h => ?_) ?_
  · have still : Rows.Kin R
        (Array.replicate run.popSize (Row.tabulate run.dim fun _ => Scalar.zero))
        (Array.replicate run'.popSize (Row.tabulate run'.dim fun _ => Scalar.zero)) := by
      rw [h.popSize, h.dim_eq]
      exact .refl (.refl Kinship.refl) _
    exact (h.remember .velocity still).remember .bestX h.X
  · apply kin_current
    intro run run' related
    apply alongside_bind (alongside_ofExcept related.fitness)
    exact fun F F' rated => kin_update fun run run' h => h.remember .bestF rated

omit [Kinship R] in
theorem kin_updateBests :
    Alongside (KinStates (P := P) J R S box k) (fun _ _ => True) updateBests updateBests := by
  apply kin_current
  intro run run' related
  apply alongside_bind (alongside_ofExcept (related.remembered .bestX))
  intro bestX bestX' places
  apply alongside_bind (alongside_ofExcept (related.remembered .bestF))
  intro bestF bestF' best
  apply alongside_bind (alongside_ofExcept related.fitness)
  intro F F' rated
  apply alongside_guard (by rw [(rated.row 0).size_eq, (Related.row best 0).size_eq])
  obtain ⟨newX, newF⟩ := remember_kin related.X rated places best
  exact kin_update fun run run' h => (h.remember .bestX newX).remember .bestF newF

theorem kin_fly (s : Settings) :
    Alongside (KinStates (P := P) J R S box k) (fun _ _ => True) (fly s) (fly s) := by
  apply alongside_bind kin_updateBests
  intro _ _ _
  refine kin_update_bind (fun run run' h => h.measureFront) (kin_current ?_)
  intro run run' related
  apply alongside_bind (alongside_ofExcept (related.remembered .velocity))
  intro velocity velocity' pace
  apply alongside_bind (alongside_ofExcept (related.remembered .bestX))
  intro bestX bestX' places
  apply alongside_guard (by
    rw [(Related.row pace 0).size_eq, (Related.row places 0).size_eq, related.dim_eq])
  apply alongside_bind (kin_perIndividual fun i => accelerate_kin s related pace places i)
  intro velocity velocity' faster
  exact kin_update fun run run' h => (h.remember .velocity faster).moveAll
    (h.X.zipWith faster fun _ _ _ _ position step => moved_kin position step)

theorem kin_step (s : Settings) :
    Alongside (KinStates (P := P) J R S box k) (fun _ _ => True) (step s) (step s) := by
  rw [step_eq]
  apply kin_current
  intro run run' related
  apply alongside_ite (by rw [related.remembers_eq])
  · exact fun _ => alongside_bind kin_prepare fun _ _ _ => kin_fly s
  · exact fun _ => kin_fly s

end Swarm

namespace Strategy

omit [Kinship S] in
theorem kin_prepare (s : Settings) :
    Alongside (KinStates (P := P) J R S box k) (fun _ _ => True) (prepare s) (prepare s) := by
  cases s with
  | swarm s => exact Swarm.kin_prepare
  | genetic | differential | firefly | teaching => exact alongside_pure trivial

variable {e e' : Evaluator σ Float P}

theorem kin_step (kin : Evaluator.Kin J R S box e e') (s : Settings) :
    Alongside (KinStates J R S box k) (fun _ _ => True) (step s e) (step s e') := by
  cases s with
  | genetic s => exact Genetic.kin_step kin s
  | differential s => exact Differential.kin_step kin s
  | swarm s => exact Swarm.kin_step s
  | firefly s => exact Firefly.kin_step kin s
  | teaching => exact Teaching.kin_step kin

/-- Generations of kin runs go alongside each other. -/
theorem kin_generation (kin : Evaluator.Kin J R S box e e') (s : Settings) :
    Alongside (KinStates J R S box k) (fun _ _ => True) (generation s e) (generation s e') := by
  apply alongside_bind (kin_step kin s)
  intro _ _ _
  apply alongside_bind (kin_evaluateAll kin)
  intro _ _ _
  apply alongside_bind kin_updateBest
  exact fun _ _ _ => kin_update fun run run' h => h.completeGeneration

end Strategy

end BoxSearch
