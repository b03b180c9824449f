import BoxSearch.Proofs.Run.Congruence
import BoxSearch.Proofs.Run.Outcomes
import BoxSearch.Proofs.Run.Population
import BoxSearch.Proofs.Scalar.Binary

/-!
The rows that a run has had evaluated, and what its tracker makes of them.

The ledger of a list of calls holds every row that a call evaluated or seeded, once and in order. It
is read off the evaluator's answers and knows nothing of batches that wait. The invariant is that
the tracker, once it has been shown what waits, is the one that the ledger's rows make one by one.
-/

namespace BoxSearch

namespace Run

variable {σ P : Type}

/-- A call on a run from outside. -/
inductive Call (σ : Type) where
  | populate (initializer : Initializer σ)
  | evaluate (X : Tensor Float)
  | evaluateAll
  | seed (X F : Value)
  | setPositions (X : Tensor Float) (indices : Option (List Int))
  | replace (indices : List Int) (X F : Tensor Float)
  | completeGeneration
  | updateBest

namespace Call

/-- What a call does. -/
def perform (evaluator : Evaluator σ Float P) : Call σ → Search σ Float P Unit
  | populate initializer => Initial.populate initializer
  | evaluate X => do let _ ← Search.evaluateArray evaluator X
  | evaluateAll => do let _ ← Search.evaluateAll evaluator
  | seed X F => Initial.adopt X F
  | setPositions X indices => Search.setPositions X indices
  | replace indices X F => Search.replace indices X F
  | completeGeneration => Search.update Run.completeGeneration
  | updateBest => Search.updateBest

/-- The rows that a call hands to the evaluator. -/
def handed (run : Run Float P) : Call σ → Rows Float
  | evaluate X =>
    match X.rowsOf run.dim with
    | .ok rows => run.bounds.clipRows rows
    | .error _ => #[]
  | evaluateAll => run.bounds.clipRows (Search.staleRows run)
  | _ => #[]

/-- What the evaluator answers to rows, as points with ranked fitness. -/
def answers (evaluator : Evaluator σ Float P) (rows : Rows Float) (session : Session σ) :
    List (Member Float P) :=
  if rows.isEmpty then []
  else match ((evaluator rows).run session).1 with
    | .ok block =>
      match Search.blockRows rows.size block with
      | .ok (_, raw) => Batch.members ⟨rows, Fitness.rankedRows raw, block.products⟩
      | .error _ => []
    | .error _ => []

/-- The points that a call evaluates or seeds. -/
def points (evaluator : Evaluator σ Float P) (s : Run Float P × Session σ) :
    Call σ → List (Member Float P)
  | seed X F =>
    match Population.ofValues X F (.int s.1.popSize) s.1.bounds
      (Initial.declaredObjectives s.1) with
    | .ok p => Batch.members ⟨p.X, Fitness.rankedRows p.F, none⟩
    | .error _ => []
  | call => answers evaluator (call.handed s.1) s.2

end Call

/-- What several calls do, one after another. -/
def performAll (evaluator : Evaluator σ Float P) : List (Call σ) → Search σ Float P Unit
  | [] => pure ()
  | call :: calls => do
    call.perform evaluator
    performAll evaluator calls

/-- All points that several calls evaluate or seed, in order. -/
def ledger (evaluator : Evaluator σ Float P) :
    List (Call σ) → Run Float P × Session σ → List (Member Float P)
  | [], _ => []
  | call :: calls, s =>
    call.points evaluator s ++ ledger evaluator calls ((call.perform evaluator).run s).2

/-- The number of rows that several calls hand to the evaluator. -/
def handedCount (evaluator : Evaluator σ Float P) :
    List (Call σ) → Run Float P × Session σ → Nat
  | [], _ => 0
  | call :: calls, s =>
    (call.handed s.1).size + handedCount evaluator calls ((call.perform evaluator).run s).2

/-- The tracker of a run, shown what still waits, is the one that the points of a ledger make one by
one. Without a tracker there are no such points and nothing waits. -/
inductive Tracked (ledger : List (Member Float P)) (run : Run Float P) : Prop
  | none (untracked : run.tracker = none) (nothing : ledger = []) (idle : run.pending = #[])
  | some (tracker fresh : Tracker Float P) (width : Nat) (tracked : run.tracker = some tracker)
      (objectives : run.nObj = some (width : Int))
      (number : ∀ m ∈ ledger, Scalar.isNaN (m.f.gene 0) = false)
      (start : Tracker.start run.dim width run.frontLimit = .ok fresh)
      (folded : tracker.foldAll run.pending = ledger.foldl Tracker.take fresh)

/-- The part of a run that keeps account of evaluations is the same. -/
structure SameAccount (run run' : Run Float P) : Prop where
  bounds : run'.bounds = run.bounds
  frontLimit : run'.frontLimit = run.frontLimit
  tracker : run'.tracker = run.tracker
  pending : run'.pending = run.pending
  nEval : run'.nEval = run.nEval
  nObj : run'.nObj = run.nObj

theorem tracked_of_sameAccount {ledger : List (Member Float P)} {run run' : Run Float P}
    (h : Tracked ledger run) (same : SameAccount run run') : Tracked ledger run' := by
  have dim : run'.dim = run.dim := by rw [Run.dim, Run.dim, same.bounds]
  cases h with
  | none untracked nothing idle =>
    exact .none (same.tracker.trans untracked) nothing (same.pending.trans idle)
  | some tracker fresh width tracked objectives number start folded =>
    refine .some tracker fresh width (same.tracker.trans tracked) (same.nObj.trans objectives)
      number ?_ ?_
    · rw [dim, same.frontLimit]
      exact start
    · rw [same.pending]
      exact folded

/-- A batch of ranked rows, as many as there are points. -/
theorem rated_ranked {X raw : Rows Float} (products : Option (Array (Option P)))
    (size : raw.size = X.size) : Batch.Rated ⟨X, Fitness.rankedRows raw, products⟩ := by
  refine ⟨(Fitness.size_rankedRows raw).trans size, fun i hi => ?_⟩
  have hraw : i < raw.size := Nat.lt_of_lt_of_eq hi size.symm
  change Scalar.isNaN (((Fitness.rankedRows raw).row i).gene 0) = false
  rw [Fitness.row_rankedRows hraw]
  by_cases hwidth : 0 < (raw.row i).size
  · have first : Row.gene ((raw.row i).map Fitness.ranked) 0 = Fitness.ranked (raw.row i)[0] := by
      simp [Row.gene, hwidth]
    rw [first]
    exact Fitness.isNaN_ranked _
  · have first : Row.gene ((raw.row i).map Fitness.ranked) 0 = (Scalar.zero : Float) := by
      simp [Row.gene, hwidth]
    rw [first]
    decide +kernel

/-- Registering a number of objectives makes a tracker that fits the ledger. -/
theorem tracked_registered {ledger : List (Member Float P)} {run run' : Run Float P} {width : Nat}
    (h : Tracked ledger run) (registered : run.Registered width run') :
    Tracked ledger run' ∧ run'.tracker.isSome = true := by
  cases registered with
  | known tracked agrees => exact ⟨h, tracked⟩
  | first fresh untracked agrees start =>
    cases h with
    | none _ nothing idle =>
      refine ⟨.some fresh fresh width rfl rfl (by simp [nothing]) start ?_, rfl⟩
      rw [nothing, idle]
      rfl
    | some tracker _ _ tracked =>
      rw [tracked] at untracked
      cases untracked

/-- A rated batch that joins the rows that wait extends the ledger by its rows. -/
theorem tracked_push {ledger : List (Member Float P)} {run run' : Run Float P} {b : Batch Float P}
    (h : Tracked ledger run) (tracked : run.tracker.isSome = true) (rated : b.Rated)
    (same : SameAccount { run with pending := run.pending.push b, nEval := run'.nEval } run') :
    Tracked (ledger ++ b.members) run' := by
  refine tracked_of_sameAccount ?_ same
  cases h with
  | none untracked =>
    rw [untracked] at tracked
    cases tracked
  | some tracker fresh width tracked objectives number start folded =>
    refine .some tracker fresh width tracked objectives (fun m hm => ?_) start ?_
    · rcases List.mem_append.mp hm with hm | hm
      · exact number m hm
      · exact rated.number_members m hm
    rw [List.foldl_append, ← folded]
    exact Tracker.foldAll_push _ _ rated

theorem size_blockRows {n width : Nat} {block : Block Float P} {raw : Rows Float}
    (h : Search.blockRows n block = .ok (width, raw)) : raw.size = n := by
  rw [Search.blockRows] at h
  split at h
  case h_1 => cases h
  case h_2 => exact Tensor.size_rowsCount h
  case h_3 count rest _ shape =>
    by_cases hcount : (count != n) = true
    · rw [if_pos hcount] at h
      cases h
    rw [if_neg hcount] at h
    cases hrows : block.fitness.rows? with
    | none =>
      rw [hrows] at h
      cases h
    | some rows =>
      rw [hrows] at h
      cases h
      rw [Tensor.size_rows? hrows shape]
      simpa using hcount

variable {evaluator : Evaluator σ Float P} {s s' : Run Float P × Session σ}

/-- What one call may do to the account: the box and the limit stay, the tracker goes with any
ledger, and the number of evaluations with the rows handed over. -/
structure Accounts (points : List (Member Float P)) (count : Nat) (run run' : Run Float P) :
    Prop where
  bounds : run'.bounds = run.bounds
  frontLimit : run'.frontLimit = run.frontLimit
  tracked (ledger : List (Member Float P)) : Tracked ledger run → Tracked (ledger ++ points) run'
  nEval : run'.nEval = run.nEval + count

theorem accounts_of_sameAccount {run run' : Run Float P} (same : SameAccount run run') :
    Accounts [] 0 run run' where
  bounds := same.bounds
  frontLimit := same.frontLimit
  tracked ledger h := by
    rw [List.append_nil]
    exact tracked_of_sameAccount h same
  nEval := same.nEval

/-- A rated batch joins the rows that wait, after its number of objectives was registered. -/
theorem accounts_push {run run' run'' : Run Float P} {width count : Nat} {b : Batch Float P}
    (registered : run.Registered width run') (rated : b.Rated)
    (same : SameAccount { run' with pending := run'.pending.push b, nEval := run''.nEval } run'')
    (nEval : run''.nEval = run'.nEval + count) : Accounts b.members count run run'' := by
  have frame : run'.bounds = run.bounds ∧ run'.frontLimit = run.frontLimit ∧
      run'.nEval = run.nEval := by
    cases registered <;> exact ⟨rfl, rfl, rfl⟩
  refine ⟨same.bounds.trans frame.1, same.frontLimit.trans frame.2.1, fun ledger h => ?_, ?_⟩
  · obtain ⟨hrun, tracked⟩ := tracked_registered h registered
    exact tracked_push hrun tracked rated same
  · rw [nEval, frame.2.2]

theorem accounts_evaluated {rows F : Rows Float} (nonempty : rows.isEmpty = false)
    (h : Evaluated evaluator rows F s s') :
    Accounts (Call.answers evaluator rows s.2) rows.size s.1 s'.1 := by
  obtain ⟨block, width, raw, ses, run, answered, shaped, paired, registered, rated, changed, -⟩ := h
  have answers : Call.answers evaluator rows s.2 =
      Batch.members ⟨rows, Fitness.rankedRows raw, block.products⟩ := by
    simp [Call.answers, nonempty, answered, shaped]
  rw [changed, answers]
  subst rated
  have ranked := rated_ranked block.products (size_blockRows shaped)
  exact accounts_push registered ranked ⟨rfl, rfl, rfl, rfl, rfl, rfl⟩ rfl

theorem sameAccount_of_repositions {run run' : Run Float P} (h : Search.Repositions run run') :
    SameAccount run run' := by
  obtain ⟨_, _, _, rfl⟩ := h
  exact ⟨rfl, rfl, rfl, rfl, rfl, rfl⟩

/-- The account after an evaluation of rows, of which there may be none. -/
theorem accounts_evaluate {rows F : Rows Float}
    (h : if rows.isEmpty then F = #[] ∧ s' = s else Evaluated evaluator rows F s s') :
    Accounts (Call.answers evaluator rows s.2) rows.size s.1 s'.1 := by
  by_cases empty : rows.isEmpty = true
  · rw [if_pos empty] at h
    have none : rows = #[] := by simpa using empty
    rw [h.2, none]
    exact accounts_of_sameAccount ⟨rfl, rfl, rfl, rfl, rfl, rfl⟩
  · rw [if_neg empty] at h
    exact accounts_evaluated (by simpa using empty) h

/-- Sampling a population evaluates nothing. -/
theorem populate_accounts (initializer : Initializer σ) :
    Search.Ensures (Initial.populate initializer : Search σ Float P Unit) s fun _ s' =>
      Accounts [] 0 s.1 s'.1 := by
  simp only [Initial.populate, Search.ensures_bind, Search.ensures_current, Search.ensures_ite,
    Search.ensures_throw]
  refine (Initial.sample_redrawn initializer).mono fun pool s₁ h₁ => ⟨fun _ => trivial, fun _ => ?_⟩
  refine (Search.setPositions_ensures pool none).mono fun _ s₂ h₂ => ?_
  obtain ⟨streams, redrawn⟩ := h₁
  obtain ⟨X, F, stale, moved⟩ := h₂
  apply accounts_of_sameAccount
  rw [moved, redrawn]
  exact ⟨rfl, rfl, rfl, rfl, rfl, rfl⟩

/-- The stale rows are evaluated in one batch, if there are any. -/
theorem evaluateAll_accounts :
    Search.Ensures (Search.evaluateAll evaluator) s fun _ s' =>
      Accounts (Call.answers evaluator (s.1.bounds.clipRows (Search.staleRows s.1)) s.2)
        (s.1.bounds.clipRows (Search.staleRows s.1)).size s.1 s'.1 := by
  refine (Search.evaluateAll_ensures evaluator).mono fun _ s' h => ?_
  by_cases empty : s.1.stalePlaces.isEmpty = true
  · rw [if_pos empty] at h
    have none : s.1.bounds.clipRows (Search.staleRows s.1) = #[] := by
      simpa [Bounds.clipRows, Search.staleRows] using empty
    rw [h, none]
    exact accounts_of_sameAccount ⟨rfl, rfl, rfl, rfl, rfl, rfl⟩
  · rw [if_neg empty] at h
    obtain ⟨F, s₁, evaluated, rfl⟩ := h
    have nonempty : (s.1.bounds.clipRows (Search.staleRows s.1)).isEmpty = false := by
      simpa [Bounds.clipRows, Search.staleRows] using empty
    obtain ⟨bounds, frontLimit, tracked, nEval⟩ := accounts_evaluated nonempty evaluated
    refine ⟨bounds, frontLimit, fun ledger h => ?_, nEval⟩
    exact tracked_of_sameAccount (tracked ledger h) ⟨rfl, rfl, rfl, rfl, rfl, rfl⟩

/-- Rows that are taken over count, but not as evaluations. -/
theorem seed_accounts {X F : Rows Float} {width : Nat} (size : F.size = X.size) :
    Search.Ensures (Search.seed X F width) s fun _ s' =>
      Accounts (Batch.members ⟨X, Fitness.rankedRows F, none⟩) 0 s.1 s'.1 := by
  refine (Search.seed_ensures X F width).mono fun _ s' h => ?_
  obtain ⟨run, registered, changed, -⟩ := h
  rw [changed]
  exact accounts_push registered (rated_ranked none size) ⟨rfl, rfl, rfl, rfl, rfl, rfl⟩ rfl

/-- A fold into the tracker changes nothing of what the tracker comes to in the end. -/
theorem accounts_folded (run : Run Float P) :
    Accounts [] 0 run
      { run with tracker := run.tracker.map (·.foldAll run.pending), pending := #[] } := by
  refine ⟨rfl, rfl, fun ledger h => ?_, rfl⟩
  rw [List.append_nil]
  cases h with
  | none untracked nothing idle => exact .none (by simp [untracked]) nothing rfl
  | some tracker fresh width tracked objectives number start folded =>
    refine .some (tracker.foldAll run.pending) fresh width (by simp [tracked]) objectives number
      start ?_
    rw [← folded]
    rfl

theorem updateBest_accounts :
    Search.Ensures (Search.updateBest : Search σ Float P Unit) s fun _ s' =>
      Accounts [] 0 s.1 s'.1 := by
  refine Search.updateBest_ensures.mono fun _ s' h => ?_
  rw [h.1]
  exact accounts_folded s.1

/-- Whatever succeeds, a call extends the ledger by its points and the number of evaluations by the
rows that it hands over. -/
theorem call_accounts (evaluator : Evaluator σ Float P) (call : Call σ) :
    Search.Ensures (call.perform evaluator) s fun _ s' =>
      Accounts (call.points evaluator s) (call.handed s.1).size s.1 s'.1 := by
  cases call with
  | populate initializer => exact populate_accounts initializer
  | evaluate X =>
    simp only [Call.perform, Search.evaluateArray, Search.ensures_bind, Search.ensures_current,
      Search.ensures_ofExcept, Search.ensures_pure]
    intro rows hrows
    have handed : (Call.evaluate X : Call σ).handed s.1 = s.1.bounds.clipRows rows := by
      simp [Call.handed, hrows]
    refine (Search.evaluate_ensures evaluator rows).mono fun F s' h => ?_
    change Accounts (Call.answers evaluator ((Call.evaluate X : Call σ).handed s.1) s.2) _ _ _
    rw [handed]
    exact accounts_evaluate h
  | evaluateAll =>
    simp only [Call.perform, Search.ensures_bind, Search.ensures_pure]
    exact evaluateAll_accounts
  | seed X F =>
    simp only [Call.perform, Initial.adopt, Search.ensures_bind, Search.ensures_current,
      Search.ensures_ofExcept]
    intro p hp
    have points : (Call.seed X F : Call σ).points evaluator s =
        Batch.members ⟨p.X, Fitness.rankedRows p.F, none⟩ := by
      simp [Call.points, hp]
    rw [points]
    exact seed_accounts (Population.size_ofValues hp)
  | setPositions X indices =>
    refine (Search.setPositions_ensures X indices).mono fun _ s' h => ?_
    exact accounts_of_sameAccount (sameAccount_of_repositions h)
  | replace indices X F =>
    refine (Search.replace_ensures indices X F).mono fun _ s' h => ?_
    exact accounts_of_sameAccount (sameAccount_of_repositions h)
  | completeGeneration =>
    rw [Call.perform, Search.ensures_update]
    exact accounts_of_sameAccount ⟨rfl, rfl, rfl, rfl, rfl, rfl⟩
  | updateBest => exact updateBest_accounts

/-- Whatever succeeds, several calls extend the ledger and the number of evaluations as they
should. -/
theorem performAll_accounts (evaluator : Evaluator σ Float P) (calls : List (Call σ)) :
    Search.Ensures (performAll evaluator calls) s fun _ s' =>
      Accounts (ledger evaluator calls s) (handedCount evaluator calls s) s.1 s'.1 := by
  induction calls generalizing s with
  | nil =>
    rw [performAll, Search.ensures_pure]
    exact accounts_of_sameAccount ⟨rfl, rfl, rfl, rfl, rfl, rfl⟩
  | cons call calls ih =>
    rw [performAll, Search.ensures_bind]
    intro _ s₁ hcall _ s₂ hcalls
    have first := call_accounts evaluator call _ _ hcall
    have rest := ih _ _ hcalls
    have left : ((call.perform evaluator).run s).2 = s₁ := by rw [hcall]
    rw [ledger, handedCount, left]
    refine ⟨rest.bounds.trans first.bounds, rest.frontLimit.trans first.frontLimit, ?_, ?_⟩
    · intro before h
      rw [← List.append_assoc]
      exact rest.tracked _ (first.tracked _ h)
    · rw [rest.nEval, first.nEval, Nat.add_assoc]

section Batching

/-- Two runs both have a tracker or both have none. -/
def bothTracked : BooksRelation Float P :=
  fun tracker _ tracker' _ => tracker.isSome = tracker'.isSome

theorem books_bothTracked : Books (bothTracked (P := P)) where
  isSome h := h
  fresh _ _ := rfl
  push _ h := h

/-- The call does more than fold what waits into the tracker. -/
def Call.isProper : Call σ → Bool
  | updateBest => false
  | _ => true

variable {t : Run Float P × Session σ}

theorem call_agree (blind : evaluator.Agrees evaluator) {call : Call σ}
    (proper : call.isProper = true) :
    Agree (AlikeStates bothTracked) (call.perform evaluator) (call.perform evaluator) := by
  cases call with
  | populate initializer => exact Initial.agree_populate initializer
  | evaluate X =>
    refine agree_bind (Search.agree_current fun run _ halike => ?_) fun _ => agree_pure _
    obtain ⟨tracker, pending, related⟩ := halike
    refine agree_bind (agree_ofExcept _) fun rows => ?_
    exact Search.agree_evaluate books_bothTracked blind rows
  | evaluateAll =>
    exact agree_bind (Search.agree_evaluateAll books_bothTracked blind) fun _ => agree_pure _
  | seed X F => exact Initial.agree_adopt books_bothTracked X F
  | setPositions X indices => exact Search.agree_setPositions X indices
  | replace indices X F => exact Search.agree_replace indices X F
  | completeGeneration => exact Search.agree_change fun _ _ _ => rfl
  | updateBest => cases proper

theorem handed_eq (alike : AlikeStates bothTracked s t) (call : Call σ) :
    call.handed s.1 = call.handed t.1 := by
  obtain ⟨run, ses⟩ := s
  obtain ⟨_, ses'⟩ := t
  obtain ⟨⟨tracker, pending, related⟩, _⟩ := alike
  cases call <;> rfl

theorem registered_eq (alike : AlikeStates bothTracked s t) :
    s.1.nObj = t.1.nObj ∧ s.1.tracker.isSome = t.1.tracker.isSome := by
  obtain ⟨run, ses⟩ := s
  obtain ⟨_, ses'⟩ := t
  obtain ⟨⟨tracker, pending, related⟩, _⟩ := alike
  exact ⟨rfl, related⟩

theorem points_eq (blind : evaluator.Agrees evaluator) (alike : AlikeStates bothTracked s t)
    (call : Call σ) : call.points evaluator s = call.points evaluator t := by
  have answers (rows : Rows Float) :
      Call.answers evaluator rows s.2 = Call.answers evaluator rows t.2 := by
    rw [Call.answers, Call.answers]
    have agreed := (blind rows s.2 t.2 alike.user).1
    cases hs : ((evaluator rows).run s.2).1 with
    | ok block =>
      rw [hs] at agreed
      generalize ((evaluator rows).run t.2).1 = r at agreed
      cases agreed
      rfl
    | error e =>
      rw [hs] at agreed
      generalize ((evaluator rows).run t.2).1 = r at agreed
      cases agreed <;> rfl
  have handed := handed_eq alike call
  cases call with
  | seed X F =>
    obtain ⟨run, ses⟩ := s
    obtain ⟨_, ses'⟩ := t
    obtain ⟨⟨tracker, pending, related⟩, _⟩ := alike
    have tracked : run.tracker.isSome = tracker.isSome := related
    simp only [Call.points, Initial.declaredObjectives, tracked]
  | _ => simp only [Call.points, handed, answers]

/-- Folding into the tracker leaves a run as it was for every other call. -/
theorem alike_updateBest (alike : AlikeStates bothTracked s t) :
    Search.Ensures (Search.updateBest : Search σ Float P Unit) s fun _ s' =>
      AlikeStates bothTracked s' t := by
  refine Search.updateBest_ensures.mono fun _ s' h => ?_
  obtain ⟨run, ses⟩ := s
  obtain ⟨_, ses'⟩ := t
  obtain ⟨⟨tracker, pending, related⟩, user⟩ := alike
  refine ⟨?_, h.2.trans user⟩
  have still : (run.tracker.map (·.foldAll run.pending)).isSome = tracker.isSome := by
    rw [Option.isSome_map]
    exact related
  rw [h.1]
  exact ⟨tracker, pending, still⟩

/-- Without the calls that fold into the tracker, a list of calls that succeeds does so too, has the
same ledger, and has as many rows evaluated. -/
theorem performAll_filter (blind : evaluator.Agrees evaluator) {calls : List (Call σ)}
    (alike : AlikeStates bothTracked s t) :
    Search.Ensures (performAll evaluator calls) s fun _ s' =>
      ∃ t', (performAll evaluator (calls.filter Call.isProper)).run t = (.ok (), t') ∧
        AlikeStates bothTracked s' t' ∧
        ledger evaluator (calls.filter Call.isProper) t = ledger evaluator calls s ∧
        handedCount evaluator (calls.filter Call.isProper) t = handedCount evaluator calls s := by
  induction calls generalizing s t with
  | nil =>
    rw [performAll, Search.ensures_pure]
    exact ⟨t, rfl, alike, rfl, rfl⟩
  | cons call calls ih =>
    rw [performAll, Search.ensures_bind]
    intro _ s₁ hcall _ s₂ hcalls
    have left : ((call.perform evaluator).run s).2 = s₁ := by rw [hcall]
    have handed := handed_eq alike call
    have points := points_eq blind alike call
    by_cases proper : call.isProper = true
    · obtain ⟨results, alike₁⟩ := call_agree blind proper s t alike
      rw [hcall] at results alike₁
      cases hcall' : (call.perform evaluator).run t with
      | mk r t₁ =>
      rw [hcall'] at results alike₁
      cases results
      obtain ⟨t₂, hcalls', alike₂, sameLedger, sameCount⟩ := ih alike₁ _ _ hcalls
      rw [List.filter_cons_of_pos proper]
      refine ⟨t₂, ?_, alike₂, ?_, ?_⟩
      · rw [performAll, run_bind, hcall']
        exact hcalls'
      · rw [ledger, ledger, hcall, hcall', points, sameLedger]
      · rw [handedCount, handedCount, hcall, hcall', handed, sameCount]
    · have isUpdate : call = .updateBest := by
        cases call <;> first | rfl | exact absurd rfl proper
      subst isUpdate
      have alike₁ := alike_updateBest alike _ _ hcall
      obtain ⟨t₂, hcalls', alike₂, sameLedger, sameCount⟩ := ih alike₁ _ _ hcalls
      rw [List.filter_cons_of_neg proper]
      refine ⟨t₂, hcalls', alike₂, ?_, ?_⟩
      · rw [ledger, left, sameLedger]
        rfl
      · rw [handedCount, left, sameCount]
        exact (Nat.zero_add _).symm

end Batching

variable {bounds : Bounds Float} {popSize : Nat} {nObj : Option Int} {frontLimit : Value}
  {seed : Nat} {session : Session σ} {calls calls' : List (Call σ)}

theorem tracked_start :
    Tracked [] (Run.start bounds popSize nObj frontLimit seed : Run Float P) :=
  .none rfl rfl rfl

/-- A run after calls and a last fold into the tracker: nothing waits. -/
structure Settled (bounds : Bounds Float) (frontLimit : Value) (rows : List (Member Float P))
    (count : Nat) (run : Run Float P) : Prop where
  bounds : run.bounds = bounds
  frontLimit : run.frontLimit = frontLimit
  tracked : Tracked rows run
  idle : run.pending = #[]
  nEval : run.nEval = count

theorem settled_updateBest
    (done : (performAll evaluator calls).run
      (Run.start bounds popSize nObj frontLimit seed, session) = (.ok (), s)) :
    Search.Ensures (Search.updateBest : Search σ Float P Unit) s fun _ s' =>
      Settled bounds frontLimit
        (ledger evaluator calls (Run.start bounds popSize nObj frontLimit seed, session))
        (handedCount evaluator calls (Run.start bounds popSize nObj frontLimit seed, session))
        s'.1 ∧ s'.1.nObj = s.1.nObj ∧ s'.1.tracker.isSome = s.1.tracker.isSome := by
  intro _ s' hupdate
  have before := performAll_accounts evaluator calls _ _ done
  have last := call_accounts evaluator .updateBest _ _ hupdate
  have tracked := last.tracked _ (before.tracked [] tracked_start)
  rw [List.nil_append] at tracked
  have changed := (Search.updateBest_ensures _ _ hupdate).1
  refine ⟨⟨last.bounds.trans before.bounds, last.frontLimit.trans before.frontLimit, ?_, ?_, ?_⟩,
    ?_, ?_⟩
  · rw [← List.append_nil (ledger _ _ _)]
    exact tracked
  · rw [changed]
  · rw [last.nEval, before.nEval]
    exact Nat.zero_add _
  · rw [changed]
  · rw [changed, Option.isSome_map]

/-- What waits for nobody and comes from the same rows is the same tracker. -/
theorem tracker_unique {rows : List (Member Float P)} {count count' : Nat} {run run' : Run Float P}
    (h : Settled bounds frontLimit rows count run) (h' : Settled bounds frontLimit rows count' run')
    (nObj : run.nObj = run'.nObj) (both : run.tracker.isSome = run'.tracker.isSome) :
    run.tracker = run'.tracker := by
  have dim : run.dim = run'.dim := by rw [Run.dim, Run.dim, h.bounds, h'.bounds]
  cases h.tracked with
  | none untracked =>
    rw [untracked] at both ⊢
    have untracked' : run'.tracker.isNone = true := Option.isSome_eq_false_iff.mp both.symm
    exact (Option.isNone_iff_eq_none.mp untracked').symm
  | some tracker fresh width tracked objectives number start folded =>
  cases h'.tracked with
  | none untracked' =>
    rw [tracked, untracked'] at both
    cases both
  | some tracker' fresh' width' tracked' objectives' number' start' folded' =>
    have widths : width = width' := by
      rw [objectives, objectives'] at nObj
      exact Int.ofNat.inj (Option.some.inj nObj)
    rw [dim, h.frontLimit, ← h'.frontLimit, widths, start'] at start
    cases start
    rw [h.idle] at folded
    rw [h'.idle, ← folded] at folded'
    rw [tracked, tracked']
    exact congrArg some folded'.symm

/-- A tracker with a single objective that has been shown the points of a ledger holds the first
best one. -/
theorem single_firstBest {rows : List (Member Float P)} {incumbent : Incumbent Float P}
    {fresh : Tracker Float P} {width : Nat}
    (start : Tracker.start bounds.dim width frontLimit = .ok fresh)
    (folded : Tracker.single incumbent = rows.foldl Tracker.take fresh) (nonempty : rows ≠ [])
    (number : ∀ m ∈ rows, Scalar.isNaN (m.f.gene 0) = false) :
    ∃ best, Incumbent.FirstBest best rows ∧ incumbent = Incumbent.holding best := by
  rw [Tracker.start] at start
  by_cases single : (width == 1) = true
  · rw [if_pos single] at start
    cases start
    rw [Tracker.foldl_take_single] at folded
    obtain ⟨best, held, first⟩ := Incumbent.foldl_take_empty nonempty number
    refine ⟨best, first, ?_⟩
    rw [← held]
    exact Tracker.single.inj folded
  · rw [if_neg single] at start
    cases hlimit : Front.limitOf frontLimit with
    | error e =>
      rw [hlimit] at start
      cases start
    | ok limit =>
      rw [hlimit] at start
      cases start
      rw [Tracker.foldl_take_several] at folded
      cases folded

/-- What a run with a single objective reports as its best point. -/
theorem best_of_holding {run : Run Float P} {best : Member Float P}
    (h : run.tracker = some (.single (Incumbent.holding best))) :
    run.bestX = .ok best.x ∧ run.bestF = .ok (.number (best.f.gene 0)) ∧
      run.bestProduct = .ok best.product := by
  have front : run.front? = none := by
    rw [front?, h]
    rfl
  have incumbent : run.incumbent? = some (best.x, best.f.gene 0, best.product) := by
    rw [incumbent?, h]
    rfl
  rw [bestX, bestF, bestProduct, front, incumbent]
  exact ⟨rfl, rfl, rfl⟩

/-- Two lists of calls that differ only in the folds between come to the same. -/
theorem settled_of_same_calls (blind : evaluator.Agrees evaluator)
    {s₁ s' t₁ t' : Run Float P × Session σ}
    (sameCalls : calls'.filter Call.isProper = calls.filter Call.isProper)
    (done : (performAll evaluator calls).run
      (Run.start bounds popSize nObj frontLimit seed, session) = (.ok (), s₁))
    (folded : (Search.updateBest : Search σ Float P Unit).run s₁ = (.ok (), s'))
    (done' : (performAll evaluator calls').run
      (Run.start bounds popSize nObj frontLimit seed, session) = (.ok (), t₁))
    (folded' : (Search.updateBest : Search σ Float P Unit).run t₁ = (.ok (), t')) :
    t'.1.tracker = s'.1.tracker ∧ t'.1.nEval = s'.1.nEval := by
  obtain ⟨settled, sameObjectives, sameTracked⟩ := settled_updateBest done _ _ folded
  obtain ⟨settled', sameObjectives', sameTracked'⟩ := settled_updateBest done' _ _ folded'
  -- both lists of calls are compared with what is left of them without the folds
  have itself : AlikeStates bothTracked
      ((Run.start bounds popSize nObj frontLimit seed : Run Float P), session)
      (Run.start bounds popSize nObj frontLimit seed, session) := ⟨⟨_, _, rfl⟩, rfl⟩
  obtain ⟨u, proper, alike, ledger, count⟩ := performAll_filter blind itself _ _ done
  obtain ⟨u', proper', alike', ledger', count'⟩ := performAll_filter blind itself _ _ done'
  rw [sameCalls] at proper' ledger' count'
  rw [proper] at proper'
  cases proper'
  rw [← ledger', ledger] at settled'
  rw [← count', count] at settled'
  have nObjs : t'.1.nObj = s'.1.nObj := by
    rw [sameObjectives, sameObjectives', (registered_eq alike).1, (registered_eq alike').1]
  have both : t'.1.tracker.isSome = s'.1.tracker.isSome := by
    rw [sameTracked, sameTracked', (registered_eq alike).2, (registered_eq alike').2]
  exact ⟨tracker_unique settled' settled nObjs both, by rw [settled'.nEval, settled.nEval]⟩

/-- Calls on a new run that succeed, whatever they are, can be followed by a fold into the tracker
unless there is no objective. The tracker then is the one that all rows evaluated or seeded make,
offered one at a time and in order, and the number of evaluations is that of the rows handed to the
evaluator. With a single objective the best point is the first best of these rows. How often the
calls before folded into the tracker makes no difference, provided that the evaluator does not look
at the log. -/
theorem tracker_eq_ledger
    {s₁ : Run Float P × Session σ}
    (done : (performAll evaluator calls).run
      (Run.start bounds popSize nObj frontLimit seed, session) = (.ok (), s₁))
    (objectives : s₁.1.nObj ≠ some 0) :
    let rows := ledger evaluator calls (Run.start bounds popSize nObj frontLimit seed, session)
    ∃ s', (Search.updateBest : Search σ Float P Unit).run s₁ = (.ok (), s') ∧
      s'.1.nEval = handedCount evaluator calls
        (Run.start bounds popSize nObj frontLimit seed, session) ∧
      (match s'.1.tracker with
        | none => rows = []
        | some tracker => ∃ (width : Nat) (fresh : Tracker Float P),
            s'.1.nObj = some (width : Int) ∧ Tracker.start bounds.dim width frontLimit = .ok fresh ∧
            tracker = rows.foldl Tracker.take fresh) ∧
      (∀ incumbent, s'.1.tracker = some (.single incumbent) → rows ≠ [] →
        ∃ best, Incumbent.FirstBest best rows ∧ s'.1.bestX = .ok best.x ∧
          s'.1.bestF = .ok (.number (best.f.gene 0)) ∧ s'.1.bestProduct = .ok best.product) ∧
      (evaluator.Agrees evaluator → ∀ calls' t₁ t',
        calls'.filter Call.isProper = calls.filter Call.isProper →
        (performAll evaluator calls').run
          (Run.start bounds popSize nObj frontLimit seed, session) = (.ok (), t₁) →
        (Search.updateBest : Search σ Float P Unit).run t₁ = (.ok (), t') →
        t'.1.tracker = s'.1.tracker ∧ t'.1.nEval = s'.1.nEval) := by
  intro rows
  obtain ⟨s', hupdate⟩ := Search.updateBest_succeeds objectives
  obtain ⟨settled, _, _⟩ := settled_updateBest done _ _ hupdate
  have dim : s'.1.dim = bounds.dim := by rw [Run.dim, settled.bounds]
  refine ⟨s', hupdate, settled.nEval, ?_, ?_, ?_⟩
  · cases settled.tracked with
    | none untracked nothing =>
      rw [untracked]
      exact nothing
    | some tracker fresh width tracked objectives number start folded =>
      rw [tracked]
      rw [dim, settled.frontLimit] at start
      rw [settled.idle] at folded
      exact ⟨width, fresh, objectives, start, folded⟩
  · intro incumbent hincumbent nonempty
    cases settled.tracked with
    | none untracked nothing => exact absurd nothing nonempty
    | some tracker fresh width tracked objectives number start folded =>
      rw [hincumbent] at tracked
      cases tracked
      rw [dim] at start
      rw [settled.idle] at folded
      obtain ⟨best, first, held⟩ := single_firstBest start folded nonempty number
      rw [held] at hincumbent
      exact ⟨best, first, best_of_holding hincumbent⟩
  · intro blind calls' t₁ t' sameCalls done' hupdate'
    exact settled_of_same_calls blind sameCalls done hupdate done' hupdate'

/-- Answers every row with its first entry. -/
def firstEntries : Evaluator Unit Float Nat :=
  fun X => return ⟨⟨[X.size, 1], X.map (Row.gene · 0)⟩, none⟩

/-- Three loose rows with a tie, a fold between, and a population of two that is moved into the box
before it is evaluated. -/
theorem tracker_eq_ledger_tie :
    let calls : List (Call Unit) :=
      [.evaluate ⟨[3, 1], #[0.75, 0.25, 0.25]⟩, .updateBest,
        .setPositions ⟨[2, 1], #[0.5, 2.0]⟩ none, .evaluateAll]
    let s : Run Float Nat × Session Unit :=
      (.start .unitInterval 2 none .absent 0, ⟨(), #[]⟩)
    ∃ s₁ s', (performAll firstEntries calls).run s = (.ok (), s₁) ∧ s₁.1.nObj ≠ some 0 ∧
      (Search.updateBest : Search Unit Float Nat Unit).run s₁ = (.ok (), s') ∧ s'.1.nEval = 5 := by
  intro calls s
  have success : ((performAll firstEntries calls).run s).1.toBool = true := by decide +kernel
  have objectives : ((performAll firstEntries calls).run s).2.1.nObj ≠ some 0 := by decide +kernel
  cases done : (performAll firstEntries calls).run s with
  | mk r s₁ =>
    rw [done] at success objectives
    cases r with
    | error e => cases success
    | ok _ =>
      obtain ⟨s', folded, count, _⟩ := tracker_eq_ledger done objectives
      refine ⟨s₁, s', rfl, objectives, folded, ?_⟩
      rw [count]
      decide +kernel

end Run

end BoxSearch
