import BoxSearch.Proofs.Run.Effects

/-!
Two computations that cannot be told apart.

They run from states that stand in a relation, and they agree if they have the same result and leave
states that stand in that relation again. Failures count as the same if they are equal or if both
come from an evaluation, since which row is to blame may depend on the order of evaluation.
-/

namespace BoxSearch

/-- The failure comes from an evaluation. -/
def Error.isEvaluation : Error → Bool
  | evaluation .. => true
  | _ => false

/-- Two results that count as the same. -/
inductive Agreed {β : Type} : Except Error β → Except Error β → Prop
  | ok (b : β) : Agreed (.ok b) (.ok b)
  | error (e : Error) : Agreed (.error e) (.error e)
  | evaluation {e e' : Error} (first : e.isEvaluation = true) (second : e'.isEvaluation = true) :
      Agreed (.error e) (.error e')

theorem Agreed.refl {β : Type} (r : Except Error β) : Agreed r r := by
  cases r with
  | ok b => exact .ok b
  | error e => exact .error e

theorem Agreed.map {β γ : Type} {r r' : Except Error β} (h : Agreed r r') (f : β → γ) :
    Agreed (r.map f) (r'.map f) := by
  cases h with
  | ok b => exact .ok (f b)
  | error e => exact .error e
  | evaluation first second => exact .evaluation first second

theorem Agreed.ok_iff {β : Type} {r r' : Except Error β} (h : Agreed r r') (b : β) :
    r = .ok b ↔ r' = .ok b := by
  cases h with
  | ok c => exact Iff.rfl
  | error e => exact Iff.rfl
  | evaluation => exact ⟨fun h => (by cases h), fun h => (by cases h)⟩

theorem Agreed.evaluation_iff {β : Type} {r r' : Except Error β} (h : Agreed r r') :
    (∃ e, r = .error e ∧ e.isEvaluation = true) ↔ ∃ e, r' = .error e ∧ e.isEvaluation = true := by
  cases h with
  | ok c => exact Iff.rfl
  | error e => exact Iff.rfl
  | evaluation first second => exact ⟨fun _ => ⟨_, rfl, second⟩, fun _ => ⟨_, rfl, first⟩⟩

/-- From two states, the computations have results that count as the same and leave related
states. -/
def AgreeFrom {S β : Type} (R : S → S → Prop) (m m' : ExceptT Error (StateM S) β)
    (s s' : S) : Prop :=
  Agreed (m.run s).1 (m'.run s').1 ∧ R (m.run s).2 (m'.run s').2

/-- The computations cannot be told apart from any two related states. -/
def Agree {S β : Type} (R : S → S → Prop) (m m' : ExceptT Error (StateM S) β) : Prop :=
  ∀ s s', R s s' → AgreeFrom R m m' s s'

section Rules

variable {S β γ : Type} {R : S → S → Prop} {m m' : ExceptT Error (StateM S) β}

theorem agree_pure (b : β) : Agree R (pure b) (pure b) :=
  fun _ _ h => ⟨.ok b, h⟩

theorem agree_throw (e : Error) : Agree R (throw e : ExceptT Error (StateM S) β) (throw e) :=
  fun _ _ h => ⟨.error e, h⟩

theorem agreeFrom_bind {f f' : β → ExceptT Error (StateM S) γ} {s s' : S}
    (first : AgreeFrom R m m' s s')
    (next : ∀ b t t', m.run s = (.ok b, t) → m'.run s' = (.ok b, t') → R t t' →
      AgreeFrom R (f b) (f' b) t t') :
    AgreeFrom R (m >>= f) (m' >>= f') s s' := by
  rw [AgreeFrom, run_bind, run_bind]
  obtain ⟨results, related⟩ := first
  cases hm : m.run s with
  | mk r t =>
  cases hm' : m'.run s' with
  | mk r' t' =>
    rw [hm, hm'] at results related
    cases results with
    | ok b => exact next b t t' hm hm' related
    | error e => exact ⟨.error e, related⟩
    | evaluation he he' => exact ⟨.evaluation he he', related⟩

theorem agree_bind {f f' : β → ExceptT Error (StateM S) γ} (first : Agree R m m')
    (next : ∀ b, Agree R (f b) (f' b)) : Agree R (m >>= f) (m' >>= f') :=
  fun s s' h => agreeFrom_bind (first s s' h) fun b t t' _ _ ht => next b t t' ht

theorem agree_ofExcept (r : Except Error β) :
    Agree R (MonadExcept.ofExcept r : ExceptT Error (StateM S) β) (MonadExcept.ofExcept r) := by
  cases r with
  | ok b => exact agree_pure b
  | error e => exact agree_throw e

theorem agreeFrom_ite {c : Prop} [Decidable c] {n n' : ExceptT Error (StateM S) β} {s s' : S}
    (yes : c → AgreeFrom R m m' s s') (no : ¬c → AgreeFrom R n n' s s') :
    AgreeFrom R (if c then m else n) (if c then m' else n') s s' := by
  by_cases h : c
  · rw [if_pos h, if_pos h]
    exact yes h
  · rw [if_neg h, if_neg h]
    exact no h

theorem agree_ite {c : Prop} [Decidable c] {n n' : ExceptT Error (StateM S) β}
    (yes : c → Agree R m m') (no : ¬c → Agree R n n') :
    Agree R (if c then m else n) (if c then m' else n') :=
  fun s s' h => agreeFrom_ite (fun hc => yes hc s s' h) fun hc => no hc s s' h

/-- The rule for a check before what follows. -/
theorem agree_guard {c : Prop} [Decidable c] {e : Error} (rest : Agree R m m') :
    Agree R (if c then (throw e : ExceptT Error (StateM S) γ) >>= fun _ => m else m)
      (if c then (throw e : ExceptT Error (StateM S) γ) >>= fun _ => m' else m') :=
  agree_ite (fun _ => agree_bind (agree_throw e) fun _ => rest) fun _ => rest

theorem agree_foldlM {ι : Type} {f f' : γ → ι → ExceptT Error (StateM S) γ}
    (step : ∀ c x, Agree R (f c x) (f' c x)) (xs : List ι) (c : γ) :
    Agree R (xs.foldlM f c) (xs.foldlM f' c) := by
  induction xs generalizing c with
  | nil => exact agree_pure c
  | cons x xs ih =>
    rw [List.foldlM_cons, List.foldlM_cons]
    exact agree_bind (step c x) ih

theorem agree_forM {ι : Type} {f f' : ι → ExceptT Error (StateM S) PUnit}
    (step : ∀ x, Agree R (f x) (f' x)) (xs : List ι) : Agree R (xs.forM f) (xs.forM f') := by
  induction xs with
  | nil => exact agree_pure _
  | cons x xs ih => exact agree_bind (step x) fun _ => ih

end Rules

end BoxSearch
