import BoxSearch.Proofs.Run.Agreement
import BoxSearch.Run.Initial

/-!
Steps that draw nothing.

What evaluates or folds does not look at the streams of a run. It does the same to a run with other
streams, and leaves these alone. The same goes for a first population that the caller supplies.
-/

namespace BoxSearch

variable {σ α P : Type} [Scalar α] {β : Type}

/-- The same state with other streams. -/
def Restreamed (streams : Streams) (s s' : Run α P × Session σ) : Prop :=
  s' = ({ s.1 with streams }, s.2)

namespace Search

/-- The computation does the same whatever the streams are, and leaves them alone. -/
def Undrawn (m : Search σ α P β) : Prop :=
  ∀ streams, Agree (Restreamed streams) m m

theorem Undrawn.run {m : Search σ α P β} (h : Undrawn m) {s t : Run α P × Session σ} {b : β}
    (ran : m.run s = (.ok b, t)) (streams : Streams) :
    m.run ({ s.1 with streams }, s.2) = (.ok b, ({ t.1 with streams }, t.2)) := by
  obtain ⟨results, same⟩ := h streams s _ rfl
  rw [ran] at results same
  exact Prod.ext ((results.ok_iff b).mp rfl) same

theorem Undrawn.streams {m : Search σ α P β} (h : Undrawn m) {s : Run α P × Session σ} :
    Ensures m s fun _ s' => s'.1.streams = s.1.streams := by
  intro b t ran
  have again := h.run ran s.1.streams
  have same : ({ s.1 with streams := s.1.streams }, s.2) = s := rfl
  rw [same, ran] at again
  have state : t = ({ t.1 with streams := s.1.streams }, t.2) := congrArg Prod.snd again
  rw [state]

theorem Undrawn.bind {γ : Type} {m : Search σ α P β} {f : β → Search σ α P γ} (first : Undrawn m)
    (next : ∀ b, Undrawn (f b)) : Undrawn (m >>= f) :=
  fun streams => agree_bind (first streams) fun b => next b streams

theorem undrawn_pure (b : β) : Undrawn (pure b : Search σ α P β) :=
  fun _ => agree_pure b

theorem undrawn_ofExcept (r : Except Error β) : Undrawn (ofExcept r : Search σ α P β) :=
  fun _ => agree_ofExcept r

theorem undrawn_ite {c : Prop} [Decidable c] {m m' : Search σ α P β} (yes : c → Undrawn m)
    (no : ¬c → Undrawn m') : Undrawn (if c then m else m') :=
  fun streams => agree_ite (fun h => yes h streams) fun h => no h streams

/-- What is read off the run must not depend on its streams. -/
theorem undrawn_current {f : Run α P → Search σ α P β}
    (next : ∀ run streams, Agree (Restreamed streams) (f run) (f { run with streams })) :
    Undrawn (current >>= f) := by
  rintro streams s _ rfl
  exact next s.1 streams s _ rfl

theorem undrawn_update {change : Run α P → Run α P}
    (blind : ∀ run streams, change { run with streams } = { change run with streams }) :
    Undrawn (update change : Search σ α P Unit) := by
  rintro streams s _ rfl
  exact ⟨.ok (), Prod.ext (blind s.1 streams) rfl⟩

theorem undrawn_act (a : Act σ β) : Undrawn (act a : Search σ α P β) := by
  rintro streams s _ rfl
  exact ⟨.refl _, rfl⟩

theorem undrawn_registerWidth (width : Nat) :
    Undrawn (registerWidth width : Search σ α P Unit) := by
  refine undrawn_current fun run streams => ?_
  let detect : Search σ α P Unit := do
    update fun run => { run with nObj := some (width : Int) }
    let tracker ← ofExcept (Tracker.start run.dim width run.frontLimit)
    update fun run => { run with tracker := some tracker }
    log (.objectivesDetected width)
  have rest : Undrawn detect := by
    refine .bind (undrawn_update fun _ _ => rfl) fun _ => ?_
    refine .bind (undrawn_ofExcept _) fun _ => ?_
    exact .bind (undrawn_update fun _ _ => rfl) fun _ => undrawn_act _
  refine agree_ite (fun _ => ?_) fun _ => ?_
  · cases run.nObj with
    | none => exact agree_pure _
    | some earlier => exact agree_ite (fun _ => agree_throw _) fun _ => agree_pure _
  · cases run.nObj with
    | none => exact rest streams
    | some declared => exact agree_guard (rest streams)

theorem undrawn_ranked (F : Rows α) : Undrawn (ranked F : Search σ α P (Rows α)) := by
  have count : Undrawn (do
      update fun run => { run with nonFinite := run.nonFinite + Fitness.unrankedCount F }
      return Fitness.rankedRows F : Search σ α P (Rows α)) := by
    exact .bind (undrawn_update fun _ _ => rfl) fun _ => undrawn_pure _
  unfold ranked
  refine undrawn_ite (fun _ => undrawn_current fun run streams => ?_) fun _ => undrawn_pure _
  exact agree_ite (fun _ => agree_bind (undrawn_act _ streams) fun _ => count streams)
    fun _ => count streams

theorem undrawn_evaluate (evaluator : Evaluator σ α P) (X : Rows α) :
    Undrawn (evaluate evaluator X) := by
  refine undrawn_current fun run streams => agree_ite (fun _ => agree_pure _) fun _ => ?_
  refine agree_bind (undrawn_act _ streams) fun block => ?_
  refine agree_bind (agree_ofExcept _) fun shape => ?_
  refine agree_bind (agree_ofExcept _) fun _ => ?_
  refine agree_bind (undrawn_registerWidth _ streams) fun _ => ?_
  refine agree_bind (undrawn_ranked _ streams) fun F => ?_
  exact agree_bind (undrawn_update (fun _ _ => rfl) streams) fun _ => agree_pure _

theorem undrawn_evaluateAll (evaluator : Evaluator σ α P) : Undrawn (evaluateAll evaluator) := by
  refine undrawn_current fun run streams => ?_
  refine agree_ite (fun _ => agree_pure _) fun _ => ?_
  refine agree_bind (undrawn_evaluate evaluator _ streams) fun F => ?_
  exact agree_bind (undrawn_update (fun _ _ => rfl) streams) fun _ => agree_pure _

theorem undrawn_updateBest : Undrawn (updateBest : Search σ α P Unit) := by
  refine undrawn_current fun run streams => ?_
  dsimp only
  cases run.tracker with
  | none => exact undrawn_update (fun _ _ => rfl) streams
  | some tracker =>
    refine agree_guard (agree_bind (agree_forM (fun _ => undrawn_act _ streams) _) fun _ => ?_)
    exact undrawn_update (fun _ _ => rfl) streams

theorem undrawn_evaluateAccept (evaluator : Evaluator σ α P) (X : Rows α) :
    Undrawn (evaluateAccept evaluator X) := by
  refine .bind (undrawn_evaluate evaluator X) fun F => undrawn_current fun run streams => ?_
  refine agree_bind (agree_ofExcept _) fun stored => ?_
  exact undrawn_update (fun _ _ => rfl) streams

theorem undrawn_setPositions (X : Tensor α) :
    Undrawn (setPositions X none : Search σ α P Unit) := by
  refine undrawn_current fun run streams => agree_bind (agree_ofExcept _) fun rows => ?_
  exact undrawn_update (fun _ _ => rfl) streams

end Search

theorem Initial.undrawn_populate_custom (sample : Call σ Value) :
    Search.Undrawn (populate (.custom sample) : Search σ Float P Unit) := by
  have called : Search.Undrawn (Initial.sample (.custom sample) : Search σ Float P _) := by
    refine Search.undrawn_current fun run streams => ?_
    exact agree_bind (Search.undrawn_act _ streams) fun _ => agree_ofExcept _
  refine called.bind fun pool => Search.undrawn_current fun run streams => ?_
  exact agree_guard (Search.undrawn_setPositions pool streams)

end BoxSearch
