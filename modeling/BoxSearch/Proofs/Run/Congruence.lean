import BoxSearch.Proofs.Run.Agreement
import BoxSearch.Proofs.Scalar.Order
import BoxSearch.Run.Initial

/-!
Steps of a run agree if their evaluators do.

The relation between two runs leaves open how much of the tracker, and of the rows that wait for it,
they share: `Books` lists what a relation between those must allow. All else is the same in both
runs, and the user's state is the same. The logs may differ.
-/

namespace BoxSearch

variable {σ α P : Type} [Scalar α] {β : Type}

/-- A relation between tracker and waiting batches of two runs. -/
abbrev BooksRelation (α P : Type) :=
  Option (Tracker α P) → Array (Batch α P) → Option (Tracker α P) → Array (Batch α P) → Prop

/-- What evaluating needs of such a relation: both runs have a tracker or neither has, and the
relation survives a new tracker and a batch that joins. -/
structure Books (T : BooksRelation α P) : Prop where
  isSome {t p t' p'} : T t p t' p' → t.isSome = t'.isSome
  fresh {t p t' p'} (x : Tracker α P) : T t p t' p' → T (some x) p (some x) p'
  push {t p t' p'} (b : Batch α P) : T t p t' p' → T t (p.push b) t' (p'.push b)

/-- A run with another tracker and other waiting batches. -/
abbrev Run.withBooks (run : Run α P) (tracker : Option (Tracker α P))
    (pending : Array (Batch α P)) : Run α P :=
  { run with tracker, pending }

/-- Two runs are the same apart from tracker and waiting batches, which are related. -/
inductive Run.Alike (T : BooksRelation α P) (run : Run α P) : Run α P → Prop
  | intro (tracker : Option (Tracker α P)) (pending : Array (Batch α P))
      (books : T run.tracker run.pending tracker pending) :
      Alike T run (run.withBooks tracker pending)

/-- Two states of a search: the runs are alike, and the user's states are the same. -/
structure AlikeStates (T : BooksRelation α P) (s s' : Run α P × Session σ) : Prop where
  run : s.1.Alike T s'.1
  user : s.2.user = s'.2.user

/-- The user's states are the same. -/
def SameUser (s s' : Session σ) : Prop :=
  s.user = s'.user

/-- Two ways to have rows evaluated cannot be told apart, and neither looks at the log. -/
def Evaluator.Agrees (e e' : Evaluator σ α P) : Prop :=
  ∀ X, Agree SameUser (e X) (e' X)

namespace Act

theorem attempt_blind (c : Call σ β) : Agree SameUser (attempt c) (attempt c) := by
  rintro ⟨user, log⟩ ⟨_, log'⟩ ⟨⟩
  exact ⟨.refl _, rfl⟩

/-- A function of the caller does not look at the log. -/
theorem call_blind (c : Call σ β) : Agree SameUser (call c) (call c) := by
  refine agree_bind (attempt_blind c) fun r => ?_
  cases r with
  | ok b => exact agree_pure b
  | error e => exact agree_throw _

end Act

namespace Search

variable {T : BooksRelation α P}

theorem agreeFrom_current {R : Run α P × Session σ → Run α P × Session σ → Prop}
    {f f' : Run α P → Search σ α P β} {s s' : Run α P × Session σ}
    (next : AgreeFrom R (f s.1) (f' s'.1) s s') :
    AgreeFrom R (current >>= f) (current >>= f') s s' :=
  next

theorem agree_current {f f' : Run α P → Search σ α P β}
    (next : ∀ run run', run.Alike T run' → Agree (AlikeStates T) (f run) (f' run')) :
    Agree (AlikeStates T) (current >>= f) (current >>= f') :=
  fun s s' h => agreeFrom_current (next s.1 s'.1 h.run s s' h)

theorem agree_update {f f' : Run α P → Run α P}
    (h : ∀ run run', run.Alike T run' → (f run).Alike T (f' run')) :
    Agree (AlikeStates (σ := σ) T) (update f) (update f') :=
  fun s s' hs => ⟨.ok (), h s.1 s'.1 hs.run, hs.user⟩

/-- A change that neither looks at tracker and waiting batches nor touches them. -/
theorem agree_change {change : Run α P → Run α P}
    (blind : ∀ run tracker pending,
      change (run.withBooks tracker pending) = (change run).withBooks tracker pending) :
    Agree (AlikeStates (σ := σ) T) (update change) (update change) := by
  refine agree_update fun run _ halike => ?_
  obtain ⟨tracker, pending, related⟩ := halike
  have kept : change run = (change run).withBooks run.tracker run.pending :=
    blind run run.tracker run.pending
  have keptTracker := congrArg Run.tracker kept
  have keptPending := congrArg Run.pending kept
  rw [blind run tracker pending]
  refine ⟨tracker, pending, ?_⟩
  rw [keptTracker, keptPending]
  exact related

theorem agreeFrom_act {a a' : Act σ β} {s s' : Run α P × Session σ} (alike : s.1.Alike T s'.1)
    (h : AgreeFrom SameUser a a' s.2 s'.2) : AgreeFrom (AlikeStates T) (act a) (act a') s s' := by
  rw [AgreeFrom, run_act, run_act]
  exact ⟨h.1, alike, h.2⟩

theorem agree_act {a a' : Act σ β} (h : Agree SameUser a a') :
    Agree (AlikeStates (α := α) (P := P) T) (act a) (act a') :=
  fun s s' hs => agreeFrom_act hs.run (h s.2 s'.2 hs.user)

theorem agree_log (event event' : Log.Event) :
    Agree (AlikeStates (σ := σ) (α := α) (P := P) T) (log event) (log event') :=
  fun _ _ hs => ⟨.ok (), hs.run, hs.user⟩

theorem agree_draw (id : StreamId) (d : Draw β) :
    Agree (AlikeStates (σ := σ) (α := α) (P := P) T) (draw id d) (draw id d) := by
  rintro ⟨run, ses⟩ ⟨_, ses'⟩ ⟨⟨tracker, pending, books⟩, user⟩
  exact ⟨.refl _, ⟨tracker, pending, books⟩, user⟩

theorem agree_registerWidth (books : Books T) (width : Nat) :
    Agree (AlikeStates (σ := σ) T) (registerWidth width) (registerWidth width) := by
  refine agree_current fun run _ halike => ?_
  obtain ⟨tracker, pending, related⟩ := halike
  have tracked : run.tracker.isSome = tracker.isSome := books.isSome related
  let detect : Search σ α P Unit := do
    update fun run => { run with nObj := some (width : Int) }
    let tracker ← ofExcept (Tracker.start run.dim width run.frontLimit)
    update fun run => { run with tracker := some tracker }
    log (.objectivesDetected width)
  have rest : Agree (AlikeStates (σ := σ) T) detect detect := by
    refine agree_bind (agree_change fun _ _ _ => rfl) fun _ => ?_
    refine agree_bind (agree_ofExcept _) fun x => ?_
    refine agree_bind (agree_update fun run _ halike => ?_) fun _ => agree_log _ _
    obtain ⟨tracker, pending, related⟩ := halike
    exact ⟨some x, pending, books.fresh x related⟩
  dsimp only
  rw [← tracked]
  refine agree_ite (fun _ => ?_) fun _ => ?_
  · cases run.nObj with
    | none => exact agree_pure _
    | some earlier => exact agree_ite (fun _ => agree_throw _) fun _ => agree_pure _
  · cases run.nObj with
    | none => exact rest
    | some declared =>
      exact agree_ite (fun _ => agree_bind (agree_throw _) fun _ => rest) fun _ => rest

theorem agree_ranked (F : Rows α) :
    Agree (AlikeStates (σ := σ) T) (ranked F : Search σ α P _) (ranked F) := by
  let count : Search σ α P (Rows α) := do
    update fun run => { run with nonFinite := run.nonFinite + Fitness.unrankedCount F }
    return Fitness.rankedRows F
  have rest : Agree (AlikeStates (σ := σ) T) count count := by
    exact agree_bind (agree_change fun _ _ _ => rfl) fun _ => agree_pure _
  unfold ranked
  refine agree_ite (fun _ => ?_) fun _ => agree_pure _
  refine agree_current fun run _ halike => ?_
  obtain ⟨tracker, pending, related⟩ := halike
  exact agree_ite (fun _ => agree_bind (agree_log _ _) fun _ => rest) fun _ => rest

/-- Evaluating the same rows agrees from two states if the evaluators do where they are asked, which
is for the rows moved into the box, if there are any. -/
theorem agreeFrom_evaluate (books : Books T) {e e' : Evaluator σ α P} {X : Rows α}
    {s s' : Run α P × Session σ} (alike : AlikeStates T s s')
    (h : 0 < X.size → AgreeFrom SameUser (e (s.1.bounds.clipRows X)) (e' (s.1.bounds.clipRows X))
      s.2 s'.2) :
    AgreeFrom (AlikeStates T) (evaluate e X) (evaluate e' X) s s' := by
  obtain ⟨run, ses⟩ := s
  obtain ⟨_, ses'⟩ := s'
  obtain ⟨⟨tracker, pending, related⟩, user⟩ := alike
  have start : AlikeStates T (run, ses) (run.withBooks tracker pending, ses') :=
    ⟨⟨tracker, pending, related⟩, user⟩
  refine agreeFrom_current (agreeFrom_ite (fun _ => agree_pure _ _ _ start) fun filled => ?_)
  have asked : 0 < X.size := by
    rw [Array.isEmpty_iff_size_eq_zero, Bounds.size_clipRows] at filled
    omega
  refine agreeFrom_bind (agreeFrom_act start.run (h asked)) fun block t t' _ _ after => ?_
  refine agree_bind (agree_ofExcept _) (fun shape => ?_) t t' after
  refine agree_bind (agree_ofExcept _) fun _ => ?_
  refine agree_bind (agree_registerWidth books _) fun _ => ?_
  refine agree_bind (agree_ranked _) fun F => ?_
  refine agree_bind (agree_update fun run _ halike => ?_) fun _ => agree_pure _
  obtain ⟨tracker, pending, related⟩ := halike
  exact ⟨tracker, _, books.push _ related⟩

/-- Evaluating the same rows agrees if the evaluators do. -/
theorem agree_evaluate (books : Books T) {e e' : Evaluator σ α P} (h : e.Agrees e') (X : Rows α) :
    Agree (AlikeStates T) (evaluate e X) (evaluate e' X) :=
  fun _ _ alike => agreeFrom_evaluate books alike fun _ => h _ _ _ alike.user

theorem agree_evaluateAll (books : Books T) {e e' : Evaluator σ α P} (h : e.Agrees e') :
    Agree (AlikeStates T) (evaluateAll e) (evaluateAll e') := by
  refine agree_current fun run _ halike => ?_
  obtain ⟨tracker, pending, related⟩ := halike
  refine agree_ite (fun _ => agree_pure _) fun _ => ?_
  refine agree_bind (agree_evaluate books h _) fun F => ?_
  exact agree_bind (agree_change fun _ _ _ => rfl) fun _ => agree_pure _

theorem agree_seed (books : Books T) (X F : Rows α) (width : Nat) :
    Agree (AlikeStates (σ := σ) T) (seed X F width) (seed X F width) := by
  refine agree_bind (agree_registerWidth books _) fun _ => ?_
  refine agree_bind (agree_ranked _) fun F => ?_
  refine agree_bind (agree_update fun run _ halike => ?_) fun _ => ?_
  · obtain ⟨tracker, pending, related⟩ := halike
    exact ⟨tracker, _, books.push _ related⟩
  refine agree_current fun run _ halike => ?_
  exact agree_log _ _

theorem agree_setPositions (X : Tensor α) (indices : Option (List Int)) :
    Agree (AlikeStates (σ := σ) (P := P) T) (setPositions X indices) (setPositions X indices) := by
  refine agree_current fun run _ halike => ?_
  obtain ⟨tracker, pending, related⟩ := halike
  cases indices with
  | none =>
    refine agree_bind (agree_ofExcept _) fun rows => ?_
    exact agree_change fun _ _ _ => rfl
  | some indices =>
    refine agree_bind (agree_ofExcept _) fun rows => ?_
    refine agree_bind (agree_ofExcept _) fun places => ?_
    exact agree_change fun _ _ _ => rfl

theorem agree_replace (indices : List Int) (X F : Tensor α) :
    Agree (AlikeStates (σ := σ) (P := P) T) (replace indices X F) (replace indices X F) := by
  unfold replace
  refine agree_ite (fun _ => agree_pure _) fun _ => agree_current fun run _ halike => ?_
  obtain ⟨tracker, pending, related⟩ := halike
  dsimp only
  cases run.F with
  | none => exact agree_throw _
  | some stored =>
    refine agree_bind (agree_ofExcept _) fun rows => ?_
    refine agree_bind (agree_ofExcept _) fun fitness => ?_
    refine agree_bind (agree_ofExcept _) fun places => ?_
    refine agree_bind (agree_change fun _ _ _ => rfl) fun _ => ?_
    refine agree_ite (fun _ => agree_change fun _ _ _ => rfl) fun _ => ?_
    exact agree_ite (fun _ => agree_change fun _ _ _ => rfl) fun _ => agree_throw _

theorem agree_perIndividual (each : Nat → Draw β) :
    Agree (AlikeStates (σ := σ) (α := α) (P := P) T) (perIndividual each) (perIndividual each) := by
  refine agree_current fun run _ halike => ?_
  obtain ⟨tracker, pending, related⟩ := halike
  refine agree_foldlM (fun drawn i => ?_) _ _
  exact agree_bind (agree_draw _ _) fun _ => agree_pure _

end Search

namespace Initial

open Search

variable {P : Type} {T : BooksRelation Float P}

theorem agree_firstAccepted (bounds : Bounds Float) (accepts : Row Float → Call σ Value)
    (tries i fuel : Nat) :
    Agree (AlikeStates (σ := σ) (P := P) T) (firstAccepted bounds accepts tries i fuel)
      (firstAccepted bounds accepts tries i fuel) := by
  induction fuel with
  | zero => exact agree_throw _
  | succ fuel ih =>
    refine agree_bind (agree_draw _ _) fun x => ?_
    refine agree_bind (agree_act (Act.call_blind _)) fun verdict => ?_
    exact agree_ite (fun _ => agree_pure _) fun _ => ih

theorem agree_sample (initializer : Initializer σ) :
    Agree (AlikeStates (P := P) T) (sample initializer) (sample initializer) := by
  refine agree_current fun run _ halike => ?_
  obtain ⟨tracker, pending, related⟩ := halike
  cases initializer with
  | uniform => exact agree_bind (agree_perIndividual _) fun _ => agree_pure _
  | latin => exact agree_bind (agree_draw _ _) fun _ => agree_pure _
  | normal mean std =>
    refine agree_bind (agree_ofExcept _) fun mean => ?_
    refine agree_bind (agree_ofExcept _) fun std => ?_
    exact agree_bind (agree_perIndividual _) fun _ => agree_pure _
  | filtered accepts tries =>
    refine agree_bind (agree_foldlM (fun X i => ?_) _ _) fun _ => agree_pure _
    exact agree_bind (agree_firstAccepted _ _ _ _ _) fun _ => agree_pure _
  | custom draw =>
    exact agree_bind (agree_act (Act.call_blind _)) fun _ => agree_ofExcept _

theorem agree_populate (initializer : Initializer σ) :
    Agree (AlikeStates (P := P) T) (populate initializer) (populate initializer) := by
  refine agree_bind (agree_sample initializer) fun pool => agree_current fun run _ halike => ?_
  obtain ⟨tracker, pending, related⟩ := halike
  have rest : Agree (AlikeStates (σ := σ) (P := P) T) (setPositions pool none)
      (setPositions pool none) := agree_setPositions pool none
  exact agree_ite (fun _ => agree_bind (agree_throw _) fun _ => rest) fun _ => rest

theorem agree_adopt (books : Books T) (X F : Value) :
    Agree (AlikeStates (σ := σ) T) (adopt X F) (adopt X F) := by
  refine agree_current fun run _ halike => ?_
  obtain ⟨tracker, pending, related⟩ := halike
  have tracked : run.tracker.isSome = tracker.isSome := books.isSome related
  simp only [declaredObjectives, ← tracked]
  exact agree_bind (agree_ofExcept _) fun p => agree_seed books _ _ _

end Initial

end BoxSearch
