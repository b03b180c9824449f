import BoxSearch.Run.Search

/-!
What a computation on a run guarantees when it succeeds.

`Ensures m s post` says nothing about failures, so a check that fails may be read as an assumption
for the rest. The rules below are equivalences: they take a `do` block apart from its first step on,
until only statements about runs are left.
-/

namespace BoxSearch

/-- A step and what follows: a failure of the step ends the whole, in the state that it left. -/
theorem run_bind {S β γ : Type} (m : ExceptT Error (StateM S) β)
    (f : β → ExceptT Error (StateM S) γ) (s : S) :
    (m >>= f).run s = match m.run s with
      | (.ok b, s') => (f b).run s'
      | (.error e, s') => (.error e, s') := by
  change (match m.run s with | (r, s') => ExceptT.bindCont f r s') = _
  cases m.run s with
  | mk r s' => cases r <;> rfl

/-- If a step and what follows succeed, so does the step, and what follows from there. -/
theorem of_run_bind {S β γ : Type} {m : ExceptT Error (StateM S) β}
    {f : β → ExceptT Error (StateM S) γ} {s s' : S} {c : γ} (h : (m >>= f).run s = (.ok c, s')) :
    ∃ b t, m.run s = (.ok b, t) ∧ (f b).run t = (.ok c, s') := by
  rw [run_bind] at h
  cases hm : m.run s with
  | mk r t =>
    rw [hm] at h
    cases r with
    | error e => cases h
    | ok b => exact ⟨b, t, rfl, h⟩

theorem of_run_ofExcept {S β : Type} {r : Except Error β} {b : β} {s s' : S}
    (h : (MonadExcept.ofExcept r : ExceptT Error (StateM S) β).run s = (.ok b, s')) :
    r = .ok b := by
  cases r with
  | error e => cases h
  | ok c =>
    cases h
    rfl

theorem run_liftM {S β : Type} (r : Except Error β) (s : S) :
    (liftM r : ExceptT Error (StateM S) β).run s = (r, s) := by
  cases r <;> rfl

namespace Search

variable {σ α P : Type} [Scalar α] {β γ : Type}

/-- If the computation succeeds from `s`, its result and the state that it leaves satisfy `post`. -/
def Ensures (m : Search σ α P β) (s : Run α P × Session σ)
    (post : β → Run α P × Session σ → Prop) : Prop :=
  ∀ b s', m.run s = (.ok b, s') → post b s'

variable {m : Search σ α P β} {s : Run α P × Session σ}
  {post : β → Run α P × Session σ → Prop}

theorem Ensures.mono {post' : β → Run α P × Session σ → Prop} (h : Ensures m s post)
    (imp : ∀ b s', post b s' → post' b s') : Ensures m s post' :=
  fun b s' hrun => imp b s' (h b s' hrun)

theorem Ensures.and {post' : β → Run α P × Session σ → Prop} (h : Ensures m s post)
    (h' : Ensures m s post') : Ensures m s fun b s' => post b s' ∧ post' b s' :=
  fun b s' hrun => ⟨h b s' hrun, h' b s' hrun⟩

@[simp]
theorem ensures_pure (b : β) : Ensures (pure b) s post ↔ post b s := by
  constructor
  · intro h
    exact h b s rfl
  · rintro h b' s' hrun
    cases hrun
    exact h

@[simp]
theorem ensures_bind {f : β → Search σ α P γ} {post : γ → Run α P × Session σ → Prop} :
    Ensures (m >>= f) s post ↔ Ensures m s fun b s' => Ensures (f b) s' post := by
  constructor
  · intro h b s' hm c s'' hf
    exact h c s'' (by rw [run_bind, hm]; exact hf)
  · intro h c s'' hrun
    obtain ⟨b, s', hm, hf⟩ := of_run_bind hrun
    exact h b s' hm c s'' hf

@[simp]
theorem ensures_throw (e : Error) : Ensures (throw e : Search σ α P β) s post ↔ True := by
  refine ⟨fun _ => trivial, fun _ b s' hrun => ?_⟩
  cases hrun

theorem run_current (s : Run α P × Session σ) :
    (current : Search σ α P (Run α P)).run s = (.ok s.1, s) :=
  rfl

@[simp]
theorem ensures_current {post : Run α P → Run α P × Session σ → Prop} :
    Ensures current s post ↔ post s.1 s := by
  constructor
  · intro h
    exact h s.1 s rfl
  · rintro h b s' hrun
    cases hrun
    exact h

@[simp]
theorem ensures_update {change : Run α P → Run α P} {post : Unit → Run α P × Session σ → Prop} :
    Ensures (update change) s post ↔ post () (change s.1, s.2) := by
  constructor
  · intro h
    exact h () _ rfl
  · rintro h b s' hrun
    cases hrun
    exact h

theorem run_act (a : Act σ β) (s : Run α P × Session σ) :
    (act a).run s = ((a.run s.2).1, (s.1, (a.run s.2).2)) :=
  rfl

@[simp]
theorem ensures_act {a : Act σ β} :
    Ensures (act a) s post ↔ ∀ b ses, a.run s.2 = (.ok b, ses) → post b (s.1, ses) := by
  constructor
  · intro h b ses ha
    exact h b (s.1, ses) (by rw [run_act, ha])
  · intro h b s' hrun
    cases ha : a.run s.2 with
    | mk r ses =>
      rw [run_act, ha] at hrun
      cases hrun
      exact h b ses ha

theorem run_ofExcept (r : Except Error β) (s : Run α P × Session σ) :
    (ofExcept r : Search σ α P β).run s = (r, s) := by
  cases r <;> rfl

@[simp]
theorem ensures_ofExcept {r : Except Error β} :
    Ensures (ofExcept r) s post ↔ ∀ b, r = .ok b → post b s := by
  cases r with
  | error e =>
    constructor
    · intro _ b hb
      cases hb
    · intro _ b s' hrun
      cases hrun
  | ok c =>
    constructor
    · intro h b hb
      cases hb
      exact h c s rfl
    · intro h b s' hrun
      cases hrun
      exact h c rfl

theorem run_draw (id : StreamId) (d : Draw β) (s : Run α P × Session σ) :
    (draw id d : Search σ α P β).run s =
      ((s.1.streams.run id d).1, ({ s.1 with streams := (s.1.streams.run id d).2 }, s.2)) :=
  rfl

@[simp]
theorem ensures_draw {id : StreamId} {d : Draw β} :
    Ensures (draw id d) s post ↔
      ∀ b streams, s.1.streams.run id d = (.ok b, streams) →
        post b ({ s.1 with streams }, s.2) := by
  constructor
  · intro h b streams hd
    exact h b _ (by rw [run_draw, hd])
  · intro h b s' hrun
    cases hd : s.1.streams.run id d with
    | mk r streams =>
      rw [run_draw, hd] at hrun
      cases hrun
      exact h b streams hd

@[simp]
theorem ensures_ite {c : Prop} [Decidable c] {m' : Search σ α P β} :
    Ensures (if c then m else m') s post ↔
      (c → Ensures m s post) ∧ (¬c → Ensures m' s post) := by
  by_cases hc : c <;> simp [hc]

/-- The rule for a loop over a list. The invariant speaks of the part of the list that is done. -/
theorem ensures_foldlM {ι : Type} {xs : List ι} {f : γ → ι → Search σ α P γ} {c : γ}
    (inv : List ι → γ → Run α P × Session σ → Prop) (first : inv [] c s)
    (step : ∀ done x rest c s, xs = done ++ x :: rest → inv done c s →
      Ensures (f c x) s (inv (done ++ [x]))) :
    Ensures (xs.foldlM f c) s (inv xs) := by
  have loop (rest done : List ι) (hxs : xs = done ++ rest) (c : γ) (s : Run α P × Session σ)
      (h : inv done c s) : Ensures (rest.foldlM f c) s (inv xs) := by
    induction rest generalizing done c s with
    | nil =>
      rw [List.append_nil] at hxs
      rw [List.foldlM_nil, ensures_pure, hxs]
      exact h
    | cons x rest ih =>
      rw [List.foldlM_cons, ensures_bind]
      refine (step done x rest c s hxs h).mono fun c' s' h' => ?_
      exact ih (done ++ [x]) (by rw [hxs]; simp) c' s' h'
  exact loop xs [] rfl c s first

end Search

end BoxSearch
