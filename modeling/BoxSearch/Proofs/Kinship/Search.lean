import BoxSearch.Proofs.Kinship.Run

/-!
Steps of a search on kin runs.

From kin runs the steps go alongside each other: they draw the same numbers, fail alike, and leave
kin runs. Evaluators must do so on kin rows; what they answer must be kin. What relates the states of
the two users is up to the evaluators, and the logs may differ.
-/

namespace BoxSearch

variable {σ : Type} {J : σ → σ → Prop} {R S : Float → Float → Prop} {P β γ : Type}
  {box : Bounds Float} {k : Nat}

/-- The user's states are related. -/
def UsersRelated (J : σ → σ → Prop) (s s' : Session σ) : Prop :=
  J s.user s'.user

/-- The runs are kin, and the user's states are related. -/
structure KinStates (J : σ → σ → Prop) (R S : Float → Float → Prop) (box : Bounds Float) (k : Nat)
    (s s' : Run Float P × Session σ) : Prop where
  run : s.1.Kin R S box k s'.1
  user : J s.2.user s'.2.user

/-- Rows with their width: the widths are the same, and the rows are kin. -/
abbrev RatedRows (S : Float → Float → Prop) (r r' : Nat × Rows Float) : Prop :=
  SamePlace (Rows.Kin S) r r'

/-- Blocks of kin fitness for `n` candidates, with the same payloads. -/
structure Block.Kin (S : Float → Float → Prop) (n : Nat) (b b' : Block Float P) : Prop where
  rows : Matched (RatedRows S) (Search.blockRows n b) (Search.blockRows n b')
  products : b.products = b'.products

/-- Kin rows of the box are answered alike. -/
def Evaluator.Kin (J : σ → σ → Prop) (R S : Float → Float → Prop) (box : Bounds Float)
    (e e' : Evaluator σ Float P) : Prop :=
  ∀ X X', Rows.Kin R X X' → 0 < X.size → (∀ x ∈ X, x.size = box.dim) →
    Alongside (UsersRelated J) (Block.Kin S X.size) (e X) (e' X')

namespace Search

variable {Q : β → γ → Prop}

theorem kin_current {f f' : Run Float P → Search σ Float P β}
    {Q : β → β → Prop}
    (next : ∀ run run', run.Kin R S box k run' →
      Alongside (KinStates J R S box k) Q (f run) (f' run')) :
    Alongside (KinStates J R S box k) Q (current >>= f) (current >>= f') := by
  intro s s' h
  exact next s.1 s'.1 h.run s s' h

theorem kin_update {f f' : Run Float P → Run Float P}
    (h : ∀ run run', run.Kin R S box k run' → (f run).Kin R S box k (f' run')) :
    Alongside (KinStates J R S box k) (fun _ _ => True) (update f) (update f') :=
  fun s s' hs => ⟨.ok trivial, h s.1 s'.1 hs.run, hs.user⟩

theorem kin_update_bind {f f' : Run Float P → Run Float P} {m : Search σ Float P β}
    {m' : Search σ Float P γ}
    (h : ∀ run run', run.Kin R S box k run' → (f run).Kin R S box k (f' run'))
    (next : Alongside (KinStates J R S box k) Q m m') :
    Alongside (KinStates J R S box k) Q (update f >>= fun _ => m) (update f' >>= fun _ => m') :=
  alongside_bind (kin_update h) fun _ _ _ => next

theorem kin_act {a : Act σ β} {a' : Act σ γ} (h : Alongside (UsersRelated J) Q a a') :
    Alongside (KinStates (P := P) J R S box k) Q (act a) (act a') := by
  intro s s' hs
  obtain ⟨outcomes, user⟩ := h s.2 s'.2 hs.user
  rw [run_act, run_act]
  exact ⟨outcomes, hs.run, user⟩

theorem kin_log (event event' : Log.Event) :
    Alongside (KinStates (P := P) J R S box k) (fun _ _ => True) (log event) (log event') :=
  fun _ _ hs => ⟨.ok trivial, hs.run, hs.user⟩

theorem kin_draw (id : StreamId) {d : Draw β} {d' : Draw γ} (h : Alongside Eq Q d d') :
    Alongside (KinStates (P := P) J R S box k) Q (draw id d) (draw id d') := by
  intro s s' hs
  obtain ⟨outcomes, streams⟩ := h (s.1.streams.get id) _ rfl
  rw [run_draw, run_draw, ← hs.run.streams]
  refine ⟨outcomes, { hs.run with streams := ?_ }, hs.user⟩
  exact congrArg (s.1.streams.set id) streams

theorem kin_perIndividual {each : Nat → Draw β} {each' : Nat → Draw γ}
    (h : ∀ i, Alongside Eq Q (each i) (each' i)) :
    Alongside (KinStates (P := P) J R S box k) (Related Q) (perIndividual each)
      (perIndividual each') := by
  intro s s' hs
  have size : s.1.popSize = s'.1.popSize := hs.run.popSize
  have one (i : Nat) : Alongside (KinStates (P := P) J R S box k) Q
      (draw (.individual i) (each i)) (draw (.individual i) (each' i)) :=
    kin_draw _ (h i)
  have drawn : Alongside (KinStates (P := P) J R S box k) (Related Q)
      (drawEach (List.range s.1.popSize) each) (drawEach (List.range s.1.popSize) each') :=
    alongside_foldlM (fun _ _ drawn i => alongside_bind (one i) fun _ _ last =>
      alongside_pure (drawn.push last)) _ .nil
  have run : (perIndividual each' : Search σ Float P _).run s' =
      (drawEach (List.range s.1.popSize) each').run s' := by
    rw [size]
    rfl
  rw [run]
  exact drawn s s' hs

variable [Kinship S]

theorem kin_registerWidth (width : Nat) :
    Alongside (KinStates (P := P) J R S box k) (fun _ _ => True) (registerWidth width)
      (registerWidth width) := by
  apply kin_current
  intro run run' h
  have detect : Alongside (KinStates (P := P) J R S box k) (fun _ _ => True) (do
        update fun run => { run with nObj := some (width : Int) }
        let tracker ← ofExcept (Tracker.start run.dim width run.frontLimit)
        update fun run => { run with tracker := some tracker }
        log (.objectivesDetected width)) (do
        update fun run => { run with nObj := some (width : Int) }
        let tracker ← ofExcept (Tracker.start run'.dim width run'.frontLimit)
        update fun run => { run with tracker := some tracker }
        log (.objectivesDetected width)) := by
    rw [h.dim_eq, h.frontLimit]
    refine kin_update_bind (fun run run' h => ?_) ?_
    · exact { h with nObj := rfl }
    apply alongside_bind (alongside_ofExcept (Tracker.Kin.refl_start (R := R) (S := S) _ _ _))
    intro t t' kin
    refine kin_update_bind (fun run run' h => ?_) (kin_log _ _)
    exact { h with tracker := .some kin }
  dsimp only
  rw [h.tracked, h.nObj]
  apply alongside_ite Iff.rfl
  · intro _
    cases run'.nObj with
    | none => exact alongside_pure trivial
    | some earlier =>
      apply alongside_ite Iff.rfl
      · exact fun _ => alongside_throw _
      · exact fun _ => alongside_pure trivial
  · intro _
    cases run'.nObj with
    | none => exact detect
    | some declared => exact alongside_guard Iff.rfl detect

theorem kin_ranked {F F' : Rows Float} (h : Rows.Kin S F F') :
    Alongside (KinStates (P := P) J R S box k) (Rows.Kin S) (ranked F) (ranked F') := by
  have count : Alongside (KinStates (P := P) J R S box k) (Rows.Kin S) (do
        update fun run => { run with nonFinite := run.nonFinite + Fitness.unrankedCount F' }
        return Fitness.rankedRows F) (do
        update fun run => { run with nonFinite := run.nonFinite + Fitness.unrankedCount F' }
        return Fitness.rankedRows F') := by
    refine kin_update_bind (fun run run' related => ?_)
      (alongside_pure (Fitness.rankedRows_kin h))
    exact { related with nonFinite := congrArg (· + Fitness.unrankedCount F') related.nonFinite }
  unfold ranked
  rw [Fitness.unrankedCount_eq h]
  apply alongside_ite Iff.rfl
  · intro _
    apply kin_current
    intro run run' related
    rw [related.nonFinite]
    apply alongside_ite Iff.rfl
    · exact fun _ => alongside_bind (kin_log _ _) fun _ _ _ => count
    · exact fun _ => count
  · exact fun _ => alongside_pure (Fitness.rankedRows_kin h)

variable [Kinship R] {e e' : Evaluator σ Float P}

theorem kin_evaluate (kin : Evaluator.Kin J R S box e e') {X X' : Rows Float} (h : Rows.Kin R X X') :
    Alongside (KinStates J R S box k) (Rows.Kin S) (evaluate e X) (evaluate e' X') := by
  apply kin_current
  intro run run' related
  have clipped := Bounds.clipRows_kin run'.bounds h
  have width : ∀ x ∈ run'.bounds.clipRows X, x.size = box.dim := by
    intro x hx
    obtain ⟨_, _, rfl⟩ := Array.mem_map.mp hx
    rw [Bounds.size_clip, related.bounds']
  rw [related.bounds_eq]
  dsimp only
  apply alongside_ite (by rw [clipped.isEmpty_eq])
  · exact fun _ => alongside_pure .nil
  intro some
  rw [Array.isEmpty_iff_size_eq_zero] at some
  apply alongside_bind (kin_act (kin _ _ clipped (by omega) width))
  intro block block' answer
  have paired : checkProducts (run'.bounds.clipRows X).size block =
      checkProducts (run'.bounds.clipRows X').size block' := by
    rw [checkProducts, checkProducts, answer.products, clipped.size_eq]
  have shaped := answer.rows
  rw [paired]
  rw [clipped.size_eq] at shaped ⊢
  apply alongside_bind (alongside_ofExcept shaped)
  rintro ⟨width, raw⟩ ⟨_, raw'⟩ ⟨rfl, rows⟩
  apply alongside_bind (alongside_ofExcept (.refl (Q := fun _ _ => True) (fun _ => trivial) _))
  intro _ _ _
  apply alongside_bind (kin_registerWidth width)
  intro _ _ _
  apply alongside_bind (kin_ranked rows)
  intro F F' rated
  refine kin_update_bind (fun run run' related => ?_) (alongside_pure rated)
  exact { related with
    nEval := by rw [related.nEval, Nat.add_right_comm]
    pending := related.pending.push ⟨clipped, rated, answer.products⟩ }

theorem kin_evaluateAll (kin : Evaluator.Kin J R S box e e') :
    Alongside (KinStates J R S box k) Eq (evaluateAll e) (evaluateAll e') := by
  apply kin_current
  intro run run' related
  have stale : Rows.Kin R (run.stalePlaces.map run.X.row).toArray
      (run.stalePlaces.map run'.X.row).toArray := by
    rw [Rows.Kin, Related, List.forall₂_map_left_iff, List.forall₂_map_right_iff,
      List.forall₂_same]
    exact fun i _ => related.X.row i
  dsimp only
  rw [← related.stalePlaces_eq]
  apply alongside_ite Iff.rfl
  · exact fun _ => alongside_pure rfl
  intro _
  apply alongside_bind (kin_evaluate kin stale)
  intro F F' rated
  exact kin_update_bind (fun run run' related => related.settle _ rated) (alongside_pure rfl)

theorem kin_updateBest :
    Alongside (KinStates (P := P) J R S box k) (fun _ _ => True) updateBest updateBest := by
  apply kin_current
  intro run run' related
  have known := related.tracker
  dsimp only
  generalize run.tracker = t at known
  generalize run'.tracker = t' at known
  cases known with
  | none => exact kin_update fun run run' h => { h with pending := .nil }
  | @some t t' kin =>
    dsimp only
    rw [related.nObj, related.pending.isEmpty_eq]
    apply alongside_guard Iff.rfl
    have folded := related.pending.foldl
      (T := fun acc acc' => Tracker.Kin R S acc.1 acc'.1 ∧ acc.2 = acc'.2)
      (f := foldBatch) (g := foldBatch) (c := (t, [])) (d := (t', []))
      (fun _ _ _ _ acc batch => by
        obtain ⟨tracker, dropped⟩ := acc.1.fold batch
        exact ⟨tracker, congrArg₂ (· ++ ·) acc.2 dropped⟩) ⟨kin, rfl⟩
    obtain ⟨tracker, dropped⟩ := folded
    refine alongside_bind (Q := fun _ _ => True) ?_ ?_
    · rw [dropped]
      exact alongside_forM (List.forall₂_same.mpr fun _ _ => rfl) fun _ _ _ => kin_log _ _
    · exact fun _ _ _ => kin_update fun run run' h =>
        { h with tracker := .some tracker, pending := .nil }

theorem kin_evaluateAccept (kin : Evaluator.Kin J R S box e e') {X X' : Rows Float}
    (h : Rows.Kin R X X') :
    Alongside (KinStates J R S box k) (fun _ _ => True) (evaluateAccept e X)
      (evaluateAccept e' X') := by
  apply alongside_bind (kin_evaluate kin h)
  intro F F' rated
  apply kin_current
  intro run run' related
  apply alongside_bind (alongside_ofExcept related.fitness)
  intro stored stored' same
  apply kin_update
  intro run run' related
  rw [related.popSize]
  exact related.accept same _ h rated

end Search

end BoxSearch
