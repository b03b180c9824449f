import BoxSearch.Proofs.Run.Evaluation

/-!
What a computation on a run leaves behind, whichever way it ends.

`Ends m s failed post` has one condition for the state after a failure and one for result and state
after a success. With `failed` never true it says that the computation succeeds; with both conditions
the same it says that an invariant is kept even if the computation breaks off halfway.
-/

namespace BoxSearch

namespace Search

variable {σ α P : Type} [Scalar α] {β γ : Type}

/-- The computation fails and leaves a state with `failed`, or succeeds with `post`. -/
def Ends (m : Search σ α P β) (s : Run α P × Session σ) (failed : Run α P × Session σ → Prop)
    (post : β → Run α P × Session σ → Prop) : Prop :=
  match m.run s with
  | (.ok b, s') => post b s'
  | (.error _, s') => failed s'

variable {m : Search σ α P β} {s : Run α P × Session σ} {failed : Run α P × Session σ → Prop}
  {post : β → Run α P × Session σ → Prop}

theorem Ends.mono {failed' : Run α P × Session σ → Prop} {post' : β → Run α P × Session σ → Prop}
    (h : Ends m s failed post) (fails : ∀ s', failed s' → failed' s')
    (imp : ∀ b s', post b s' → post' b s') : Ends m s failed' post' := by
  unfold Ends at h ⊢
  split at h
  · exact imp _ _ h
  · exact fails _ h

theorem Ends.imp {post' : β → Run α P × Session σ → Prop} (h : Ends m s failed post)
    (imp : ∀ b s', post b s' → post' b s') : Ends m s failed post' :=
  h.mono (fun _ h => h) imp

theorem Ends.ensures (h : Ends m s failed post) : Ensures m s post := by
  intro b s' hrun
  rwa [Ends, hrun] at h

/-- What is known of a success may be used when what follows it is looked at. -/
theorem Ends.and_ensures {post' : β → Run α P × Session σ → Prop} (h : Ends m s failed post)
    (h' : Ensures m s post') : Ends m s failed fun b s' => post b s' ∧ post' b s' := by
  unfold Ends at h ⊢
  cases hrun : m.run s with
  | mk r s' =>
    rw [hrun] at h
    cases r with
    | error e => exact h
    | ok b => exact ⟨h, h' b s' hrun⟩

/-- A computation that cannot fail succeeds. -/
theorem exists_of_ends (h : Ends m s (fun _ => False) post) :
    ∃ b s', m.run s = (.ok b, s') ∧ post b s' := by
  unfold Ends at h
  cases hrun : m.run s with
  | mk r s' =>
    rw [hrun] at h
    cases r with
    | error e => exact h.elim
    | ok b => exact ⟨b, s', rfl, h⟩

/-- An invariant that holds whichever way the computation ends holds of the state it leaves. -/
theorem Ends.after {inv : Run α P × Session σ → Prop} (h : Ends m s inv fun _ => inv) :
    inv (m.run s).2 := by
  unfold Ends at h
  cases hrun : m.run s with
  | mk r s' =>
    rw [hrun] at h
    cases r <;> exact h

@[simp]
theorem ends_pure (b : β) : Ends (pure b) s failed post ↔ post b s :=
  Iff.rfl

@[simp]
theorem ends_throw (e : Error) : Ends (throw e : Search σ α P β) s failed post ↔ failed s :=
  Iff.rfl

@[simp]
theorem ends_bind {f : β → Search σ α P γ} {post : γ → Run α P × Session σ → Prop} :
    Ends (m >>= f) s failed post ↔ Ends m s failed fun b s' => Ends (f b) s' failed post := by
  unfold Ends
  rw [run_bind]
  cases m.run s with
  | mk r s' => cases r <;> rfl

@[simp]
theorem ends_current {post : Run α P → Run α P × Session σ → Prop} :
    Ends current s failed post ↔ post s.1 s :=
  Iff.rfl

@[simp]
theorem ends_update {change : Run α P → Run α P} {post : Unit → Run α P × Session σ → Prop} :
    Ends (update change) s failed post ↔ post () (change s.1, s.2) :=
  Iff.rfl

@[simp]
theorem ends_log {event : Log.Event} {post : Unit → Run α P × Session σ → Prop} :
    Ends (log event) s failed post ↔
      post () (s.1, { s.2 with log := s.2.log.push event }) :=
  Iff.rfl

theorem ends_act {a : Act σ β} :
    Ends (act a) s failed post ↔ match a.run s.2 with
      | (.ok b, session) => post b (s.1, session)
      | (.error _, session) => failed (s.1, session) := by
  unfold Ends
  rw [run_act]
  cases a.run s.2 with
  | mk r session => cases r <;> rfl

theorem ends_draw {id : StreamId} {d : Draw β} :
    Ends (draw id d) s failed post ↔ match s.1.streams.run id d with
      | (.ok b, streams) => post b ({ s.1 with streams }, s.2)
      | (.error _, streams) => failed ({ s.1 with streams }, s.2) := by
  unfold Ends
  rw [run_draw]
  cases s.1.streams.run id d with
  | mk r streams => cases r <;> rfl

/-- Of a result that is known to be a value, only that value has to be looked at. -/
theorem forall_of_ok {ε : Type} {b : β} {good : β → Prop} {bad : ε → Prop} (h : good b) :
    (∀ c, (.ok b : Except ε β) = .ok c → good c) ∧
      ∀ e, (.ok b : Except ε β) = .error e → bad e := by
  constructor
  · rintro c ⟨⟩
    exact h
  · rintro e ⟨⟩

@[simp]
theorem ends_ofExcept {r : Except Error β} :
    Ends (ofExcept r) s failed post ↔
      (∀ b, r = .ok b → post b s) ∧ ∀ e, r = .error e → failed s := by
  cases r with
  | error e =>
    constructor
    · intro h
      refine ⟨?_, fun _ _ => h⟩
      rintro b ⟨⟩
    · intro h
      exact h.2 e rfl
  | ok b =>
    constructor
    · intro h
      exact forall_of_ok h
    · intro h
      exact h.1 b rfl

@[simp]
theorem ends_ite {c : Prop} [Decidable c] {m' : Search σ α P β} :
    Ends (if c then m else m') s failed post ↔
      (c → Ends m s failed post) ∧ (¬c → Ends m' s failed post) := by
  by_cases hc : c <;> simp [hc]

/-- The rule for a loop over a list. The invariant speaks of the part of the list that is done. -/
theorem ends_foldlM {ι : Type} {xs : List ι} {f : γ → ι → Search σ α P γ} {c : γ}
    (inv : List ι → γ → Run α P × Session σ → Prop) (first : inv [] c s)
    (step : ∀ done x rest c s, xs = done ++ x :: rest → inv done c s →
      Ends (f c x) s failed (inv (done ++ [x]))) :
    Ends (xs.foldlM f c) s failed (inv xs) := by
  have loop (rest done : List ι) (hxs : xs = done ++ rest) (c : γ) (s : Run α P × Session σ)
      (h : inv done c s) : Ends (rest.foldlM f c) s failed (inv xs) := by
    induction rest generalizing done c s with
    | nil =>
      rw [List.append_nil] at hxs
      rw [List.foldlM_nil, ends_pure, hxs]
      exact h
    | cons x rest ih =>
      rw [List.foldlM_cons, ends_bind]
      apply (step done x rest c s hxs h).imp
      intro c' s' h'
      exact ih (done ++ [x]) (by simp [hxs]) c' s' h'
  exact loop xs [] rfl c s first

theorem ends_forM {ι : Type} {xs : List ι} {f : ι → Search σ α P Unit}
    (inv : Run α P × Session σ → Prop) (first : inv s)
    (step : ∀ x ∈ xs, ∀ s, inv s → Ends (f x) s failed fun _ => inv) :
    Ends (xs.forM f) s failed fun _ => inv := by
  induction xs generalizing s with
  | nil => exact first
  | cons x xs ih =>
    change Ends (f x >>= fun _ => xs.forM f) s failed _
    rw [ends_bind]
    apply (step x List.mem_cons_self s first).imp
    intro _ s' h'
    exact ih h' fun y hy => step y (List.mem_cons_of_mem _ hy)

theorem ends_mapM {ι : Type} {xs : List ι} {f : ι → Search σ α P β}
    (inv : Run α P × Session σ → Prop) (first : inv s)
    (step : ∀ x ∈ xs, ∀ s, inv s → Ends (f x) s failed fun _ => inv) :
    Ends (xs.mapM f) s failed fun _ => inv := by
  induction xs generalizing s with
  | nil => exact first
  | cons x xs ih =>
    rw [List.mapM_cons]
    simp only [ends_bind, ends_pure]
    apply (step x List.mem_cons_self s first).imp
    intro _ s' h'
    exact ih h' fun y hy => step y (List.mem_cons_of_mem _ hy)

/-- A draw changes the streams and nothing else, also if it fails. -/
theorem draw_ends (id : StreamId) (d : Draw β) :
    Ends (draw id d : Search σ α P β) s (fun s' => Redrawn s.1 s'.1 ∧ s'.2 = s.2)
      fun _ s' => Redrawn s.1 s'.1 ∧ s'.2 = s.2 := by
  rw [ends_draw]
  split <;> exact ⟨⟨_, rfl⟩, rfl⟩

theorem drawEach_ends (order : List Nat) (each : Nat → Draw β) :
    Ends (drawEach order each : Search σ α P (Array β)) s
      (fun s' => Redrawn s.1 s'.1 ∧ s'.2 = s.2) fun _ s' => Redrawn s.1 s'.1 ∧ s'.2 = s.2 := by
  refine ends_foldlM (fun _ _ s' => Redrawn s.1 s'.1 ∧ s'.2 = s.2) ⟨.refl _, rfl⟩ ?_
  intro done i rest drawn s₁ _ h
  rw [ends_bind]
  apply (draw_ends _ _).mono
  · intro s₂ h₂
    exact ⟨h.1.trans h₂.1, h₂.2.trans h.2⟩
  · intro _ s₂ h₂
    exact ⟨h.1.trans h₂.1, h₂.2.trans h.2⟩

theorem perIndividual_ends (each : Nat → Draw β) :
    Ends (perIndividual each : Search σ α P (Array β)) s
      (fun s' => Redrawn s.1 s'.1 ∧ s'.2 = s.2) fun _ s' => Redrawn s.1 s'.1 ∧ s'.2 = s.2 :=
  drawEach_ends _ _

/-- Whatever is done outside the run leaves the run alone. -/
theorem act_ends (a : Act σ β) :
    Ends (act a : Search σ α P β) s (fun s' => s'.1 = s.1) fun _ s' => s'.1 = s.1 := by
  rw [ends_act]
  split <;> rfl

/-- The computation changes at most the streams, whichever way it ends. -/
abbrev Redraws (m : Search σ α P β) (s : Run α P × Session σ) : Prop :=
  Ends m s (fun s' => Redrawn s.1 s'.1) fun _ s' => Redrawn s.1 s'.1

theorem redraws_bind {f : β → Search σ α P γ} (first : Redraws m s)
    (next : ∀ b s', Redraws (f b) s') : Redraws (m >>= f) s := by
  rw [Redraws, ends_bind]
  apply first.imp
  intro b s₁ h₁
  exact (next b s₁).mono (fun _ h₂ => h₁.trans h₂) fun _ _ h₂ => h₁.trans h₂

theorem redraws_pure (b : β) : Redraws (pure b : Search σ α P β) s :=
  .refl s.1

theorem redraws_ofExcept (r : Except Error β) : Redraws (ofExcept r : Search σ α P β) s := by
  rw [Redraws, ends_ofExcept]
  exact ⟨fun _ _ => .refl s.1, fun _ _ => .refl s.1⟩

theorem redraws_draw (id : StreamId) (d : Draw β) : Redraws (draw id d : Search σ α P β) s :=
  (draw_ends id d).mono (fun _ h => h.1) fun _ _ h => h.1

theorem redraws_act (a : Act σ β) : Redraws (act a : Search σ α P β) s := by
  apply (act_ends a).mono
  · intro s' same
    rw [same]
    exact .refl s.1
  · intro _ s' same
    rw [same]
    exact .refl s.1

theorem redraws_perIndividual (each : Nat → Draw β) :
    Redraws (perIndividual each : Search σ α P (Array β)) s :=
  (perIndividual_ends each).mono (fun _ h => h.1) fun _ _ h => h.1

theorem redraws_foldlM {ι : Type} {xs : List ι} {f : γ → ι → Search σ α P γ} {c : γ}
    (step : ∀ c x s', Redraws (f c x) s') : Redraws (xs.foldlM f c) s := by
  refine ends_foldlM (fun _ _ s' => Redrawn s.1 s'.1) (.refl s.1) ?_
  intro _ x _ c s₁ _ h₁
  exact (step c x s₁).mono (fun _ h₂ => h₁.trans h₂) fun _ _ h₂ => h₁.trans h₂

end Search

namespace Initial

open Search

variable {σ P : Type} {s : Run Float P × Session σ}

theorem redraws_firstAccepted (bounds : Bounds Float) (accepts : Row Float → Call σ Value)
    (tries i fuel : Nat) :
    Redraws (firstAccepted bounds accepts tries i fuel : Search σ Float P (Row Float)) s := by
  induction fuel generalizing s with
  | zero => exact .refl s.1
  | succ fuel ih =>
    apply redraws_bind (redraws_draw _ _)
    intro x s₁
    apply redraws_bind (redraws_act _)
    intro verdict s₂
    rw [Redraws, ends_ite]
    exact ⟨fun _ => .refl s₂.1, fun _ => ih⟩

/-- Sampling a population leaves everything but the streams alone, also if it fails. -/
theorem redraws_sample (initializer : Initializer σ) :
    Redraws (sample initializer : Search σ Float P (Tensor Float)) s := by
  rw [sample, Redraws, ends_bind, ends_current]
  cases initializer with
  | uniform => exact redraws_bind (redraws_perIndividual _) fun _ _ => redraws_pure _
  | latin => exact redraws_bind (redraws_draw _ _) fun _ _ => redraws_pure _
  | normal mean std =>
    apply redraws_bind (redraws_ofExcept _)
    intro mean s₁
    apply redraws_bind (redraws_ofExcept _)
    intro std s₂
    exact redraws_bind (redraws_perIndividual _) fun _ _ => redraws_pure _
  | filtered accepts tries =>
    apply redraws_bind
    · apply redraws_foldlM
      intro X i s₁
      exact redraws_bind (redraws_firstAccepted _ _ _ _ _) fun _ _ => redraws_pure _
    · exact fun _ _ => redraws_pure _
  | custom draw => exact redraws_bind (redraws_act _) fun _ _ => redraws_ofExcept _

theorem sample_redrawn (initializer : Initializer σ) :
    Ensures (sample initializer) s fun _ s' => Redrawn s.1 s'.1 :=
  (redraws_sample initializer).ensures

end Initial

end BoxSearch
