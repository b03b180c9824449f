import BoxSearch.Proofs.Related
import BoxSearch.Proofs.Run.Effects

/-!
Computations that go alongside each other.

From related states two such computations either both fail, with the same error, or both have
results, and these are related. In either case they leave related states. Unlike two computations
that agree, they may handle different data, as long as the difference does not show in what they do.
-/

namespace BoxSearch

/-- Two outcomes: the same error, or related results. -/
inductive Matched {β γ : Type} (Q : β → γ → Prop) : Except Error β → Except Error γ → Prop
  | ok {b : β} {c : γ} (related : Q b c) : Matched Q (.ok b) (.ok c)
  | error (e : Error) : Matched Q (.error e) (.error e)

namespace Matched

variable {β γ β' γ' : Type} {Q : β → γ → Prop} {Q' : β' → γ' → Prop} {r : Except Error β}
  {r' : Except Error γ}

theorem refl {Q : β → β → Prop} (h : ∀ b, Q b b) (r : Except Error β) : Matched Q r r := by
  cases r with
  | ok b => exact .ok (h b)
  | error e => exact .error e

theorem bind {f : β → Except Error β'} {f' : γ → Except Error γ'} (h : Matched Q r r')
    (next : ∀ b c, Q b c → Matched Q' (f b) (f' c)) : Matched Q' (r >>= f) (r' >>= f') := by
  cases h with
  | ok related => exact next _ _ related
  | error e => exact .error e

theorem map {f : β → β'} {f' : γ → γ'} (h : Matched Q r r') (step : ∀ b c, Q b c → Q' (f b) (f' c)) :
    Matched Q' (r.map f) (r'.map f') := by
  cases h with
  | ok related => exact .ok (step _ _ related)
  | error e => exact .error e

theorem toOption (h : Matched Q r r') : Option.Rel Q r.toOption r'.toOption := by
  cases h with
  | ok related => exact .some related
  | error => exact .none

theorem ok_left {b : β} (h : Matched Q (.ok b) r') : ∃ c, r' = .ok c ∧ Q b c := by
  cases h with
  | ok related => exact ⟨_, rfl, related⟩

theorem ok_right {c : γ} (h : Matched Q r (.ok c)) : ∃ b, r = .ok b ∧ Q b c := by
  cases h with
  | ok related => exact ⟨_, rfl, related⟩

end Matched

/-- From related states the computations have outcomes that match, and leave related states. -/
def Alongside {S S' β γ : Type} (R : S → S' → Prop) (Q : β → γ → Prop)
    (m : ExceptT Error (StateM S) β) (m' : ExceptT Error (StateM S') γ) : Prop :=
  ∀ s s', R s s' → Matched Q (m.run s).1 (m'.run s').1 ∧ R (m.run s).2 (m'.run s').2

section Rules

variable {S S' β γ β' γ' ι κ : Type} {R : S → S' → Prop} {Q : β → γ → Prop} {Q' : β' → γ' → Prop}
  {m : ExceptT Error (StateM S) β} {m' : ExceptT Error (StateM S') γ}

/-- Where the first computation succeeds, the second one does. -/
theorem Alongside.ok_left (h : Alongside R Q m m') {s t : S} {s' : S'} (hs : R s s') {b : β}
    (ran : m.run s = (.ok b, t)) : ∃ c t', m'.run s' = (.ok c, t') ∧ Q b c ∧ R t t' := by
  obtain ⟨outcomes, states⟩ := h s s' hs
  rw [ran] at outcomes states
  obtain ⟨c, done, related⟩ := outcomes.ok_left
  exact ⟨c, _, Prod.ext done rfl, related, states⟩

/-- Where the second computation succeeds, the first one does. -/
theorem Alongside.ok_right (h : Alongside R Q m m') {s : S} {s' t' : S'} (hs : R s s') {c : γ}
    (ran : m'.run s' = (.ok c, t')) : ∃ b t, m.run s = (.ok b, t) ∧ Q b c ∧ R t t' := by
  obtain ⟨outcomes, states⟩ := h s s' hs
  rw [ran] at outcomes states
  obtain ⟨b, done, related⟩ := outcomes.ok_right
  exact ⟨b, _, Prod.ext done rfl, related, states⟩

theorem alongside_pure {b : β} {c : γ} (h : Q b c) :
    Alongside R Q (pure b) (pure c) :=
  fun _ _ hs => ⟨.ok h, hs⟩

/-- A computation goes alongside itself. -/
theorem alongside_self (m : ExceptT Error (StateM S) β) : Alongside Eq Eq m m := by
  rintro s _ rfl
  exact ⟨.refl (fun _ => rfl) _, rfl⟩

theorem alongside_throw (e : Error) :
    Alongside R Q (throw e : ExceptT Error (StateM S) β) (throw e : ExceptT Error (StateM S') γ) :=
  fun _ _ hs => ⟨.error e, hs⟩

theorem alongside_bind {f : β → ExceptT Error (StateM S) β'} {f' : γ → ExceptT Error (StateM S') γ'}
    (first : Alongside R Q m m') (next : ∀ b c, Q b c → Alongside R Q' (f b) (f' c)) :
    Alongside R Q' (m >>= f) (m' >>= f') := by
  intro s s' hs
  obtain ⟨outcomes, states⟩ := first s s' hs
  rw [run_bind, run_bind]
  generalize m.run s = x at outcomes states
  generalize m'.run s' = y at outcomes states
  obtain ⟨r, t⟩ := x
  obtain ⟨r', t'⟩ := y
  cases outcomes with
  | ok related => exact next _ _ related t t' states
  | error e => exact ⟨.error e, states⟩

theorem alongside_ofExcept {r : Except Error β} {r' : Except Error γ} (h : Matched Q r r') :
    Alongside R Q (MonadExcept.ofExcept r : ExceptT Error (StateM S) β)
      (MonadExcept.ofExcept r' : ExceptT Error (StateM S') γ) := by
  cases h with
  | ok related => exact alongside_pure related
  | error e => exact alongside_throw e

/-- The rule for two cases: both computations take the same one. -/
theorem alongside_ite {c c' : Prop} [Decidable c] [Decidable c'] (same : c ↔ c')
    {n : ExceptT Error (StateM S) β} {n' : ExceptT Error (StateM S') γ}
    (yes : c → Alongside R Q m m') (no : ¬c → Alongside R Q n n') :
    Alongside R Q (if c then m else n) (if c' then m' else n') := by
  by_cases h : c
  · rw [if_pos h, if_pos (same.mp h)]
    exact yes h
  · rw [if_neg h, if_neg fun h' => h (same.mpr h')]
    exact no h

/-- The rule for a check before what follows. -/
theorem alongside_guard {c c' : Prop} [Decidable c] [Decidable c'] (same : c ↔ c') {e : Error}
    (rest : Alongside R Q m m') :
    Alongside R Q (if c then (throw e : ExceptT Error (StateM S) β') >>= fun _ => m else m)
      (if c' then (throw e : ExceptT Error (StateM S') γ') >>= fun _ => m' else m') := by
  apply alongside_ite same
  · intro _
    exact alongside_bind (alongside_throw (Q := fun _ _ => True) e) fun _ _ _ => rest
  · exact fun _ => rest

theorem alongside_foldlM {f : β → ι → ExceptT Error (StateM S) β}
    {f' : γ → ι → ExceptT Error (StateM S') γ}
    (step : ∀ b c, Q b c → ∀ x, Alongside R Q (f b x) (f' c x)) (xs : List ι) {b : β} {c : γ}
    (first : Q b c) : Alongside R Q (xs.foldlM f b) (xs.foldlM f' c) := by
  induction xs generalizing b c with
  | nil => exact alongside_pure first
  | cons x xs ih =>
    rw [List.foldlM_cons, List.foldlM_cons]
    exact alongside_bind (step b c first x) fun _ _ next => ih next

theorem alongside_mapM {f : ι → ExceptT Error (StateM S) β} {f' : ι → ExceptT Error (StateM S') γ}
    (step : ∀ x, Alongside R Q (f x) (f' x)) (xs : List ι) :
    Alongside R (List.Forall₂ Q) (xs.mapM f) (xs.mapM f') := by
  induction xs with
  | nil => exact alongside_pure .nil
  | cons x xs ih =>
    rw [List.mapM_cons, List.mapM_cons]
    refine alongside_bind (step x) fun b c related => ?_
    exact alongside_bind ih fun bs cs all => alongside_pure (.cons related all)

theorem alongside_forM {f : ι → ExceptT Error (StateM S) PUnit}
    {f' : κ → ExceptT Error (StateM S') PUnit} {Q : ι → κ → Prop} {xs : List ι} {ys : List κ}
    (h : List.Forall₂ Q xs ys)
    (step : ∀ x y, Q x y → Alongside R (fun _ _ => True) (f x) (f' y)) :
    Alongside R (fun _ _ => True) (xs.forM f) (ys.forM f') := by
  induction h with
  | nil => exact alongside_pure trivial
  | cons first _ ih => exact alongside_bind (step _ _ first) fun _ _ _ => ih

end Rules

end BoxSearch
