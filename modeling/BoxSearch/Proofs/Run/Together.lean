import BoxSearch.Proofs.Draw
import Mathlib.Data.List.Forall2

/-!
Two runs side by side.

`Together m m' s s' post` relates what two computations leave if both succeed. The two go through
their steps one pair at a time, and what is known of one pair may be used for the next. Draws go in
step if they leave a stream in the same state when they find it in the same state; what they make of
the numbers may differ.
-/

namespace BoxSearch

namespace Draw

variable {β γ β' γ' : Type} {R : β → γ → Prop} {S : β' → γ' → Prop} {d : Draw β} {d' : Draw γ}

/-- From one state of a stream the two draws, if both give a result, get to one state again, and the
results are related. -/
def InStep (R : β → γ → Prop) (d : Draw β) (d' : Draw γ) : Prop :=
  ∀ g b g₁ c g₂, d g = (.ok b, g₁) → d' g = (.ok c, g₂) → g₁ = g₂ ∧ R b c

theorem InStep.mono {R' : β → γ → Prop} (h : InStep R d d') (imp : ∀ b c, R b c → R' b c) :
    InStep R' d d' := by
  intro g b g₁ c g₂ hd hd'
  obtain ⟨same, related⟩ := h g b g₁ c g₂ hd hd'
  exact ⟨same, imp b c related⟩

theorem inStep_self (d : Draw β) : InStep (· = ·) d d := by
  intro g b g₁ c g₂ hd hd'
  rw [hd] at hd'
  cases hd'
  exact ⟨rfl, rfl⟩

theorem inStep_pure {b : β} {c : γ} (h : R b c) : InStep R (pure b) (pure c) := by
  intro g b g₁ c g₂ hd hd'
  cases hd
  cases hd'
  exact ⟨rfl, h⟩

theorem inStep_bind {f : β → Draw β'} {f' : γ → Draw γ'} (first : InStep R d d')
    (next : ∀ b c, R b c → InStep S (f b) (f' c)) : InStep S (d >>= f) (d' >>= f') := by
  intro g b g₁ c g₂ hd hd'
  obtain ⟨x, h₁, drawn, rest⟩ := of_run_bind (show (d >>= f).run g = _ from hd)
  obtain ⟨y, h₂, drawn', rest'⟩ := of_run_bind (show (d' >>= f').run g = _ from hd')
  obtain ⟨rfl, related⟩ := first g x h₁ y h₂ drawn drawn'
  exact next x y related h₁ b g₁ c g₂ rest rest'

theorem inStep_throw (e : Error) : InStep R (throw e) d' :=
  fun _ _ _ _ _ hd _ => by cases hd

theorem inStep_ofExcept {r : Except Error β} {r' : Except Error γ}
    (h : ∀ b c, r = .ok b → r' = .ok c → R b c) :
    InStep R (MonadExcept.ofExcept r) (MonadExcept.ofExcept r') := by
  cases r with
  | error e => exact inStep_throw e
  | ok b =>
    cases r' with
    | error e => exact fun _ _ _ _ _ _ hd' => by cases hd'
    | ok c => exact inStep_pure (h b c rfl rfl)

/-- The rule for a check of each side before what follows. -/
theorem inStep_guard {c c' : Prop} [Decidable c] [Decidable c'] {e e' : Error}
    (h : InStep R d d') :
    InStep R (if c then (throw e : Draw β') >>= fun _ => d else d)
      (if c' then (throw e' : Draw γ') >>= fun _ => d' else d') := by
  intro g b g₁ c g₂ hd hd'
  split at hd
  · obtain ⟨_, _, failed, _⟩ := of_run_bind (show (_ >>= _ : Draw β).run g = _ from hd)
    cases failed
  · split at hd'
    · obtain ⟨_, _, failed, _⟩ := of_run_bind (show (_ >>= _ : Draw γ).run g = _ from hd')
      cases failed
    · exact h g b g₁ c g₂ hd hd'

end Draw

/-- Every stream of the two runs is in the same state. -/
def Run.SameStreams {α P : Type} [Scalar α] (run run' : Run α P) : Prop :=
  ∀ id, run.streams.get id = run'.streams.get id

namespace Search

variable {σ τ α P : Type} [Scalar α] {β γ β' γ' : Type}

/-- If both computations succeed, their results and the states that they leave are related. -/
def Together (m : Search σ α P β) (m' : Search τ α P γ) (s : Run α P × Session σ)
    (s' : Run α P × Session τ)
    (post : β → γ → Run α P × Session σ → Run α P × Session τ → Prop) : Prop :=
  ∀ b c t t', m.run s = (.ok b, t) → m'.run s' = (.ok c, t') → post b c t t'

variable {m : Search σ α P β} {m' : Search τ α P γ} {s : Run α P × Session σ}
  {s' : Run α P × Session τ} {post : β → γ → Run α P × Session σ → Run α P × Session τ → Prop}

theorem Together.mono
    {post' : β → γ → Run α P × Session σ → Run α P × Session τ → Prop}
    (h : Together m m' s s' post) (imp : ∀ b c t t', post b c t t' → post' b c t t') :
    Together m m' s s' post' :=
  fun b c t t' hm hm' => imp b c t t' (h b c t t' hm hm')

/-- What each computation ensures by itself. -/
theorem Together.and_ensures {one : β → Run α P × Session σ → Prop}
    {other : γ → Run α P × Session τ → Prop} (h : Together m m' s s' post)
    (first : Ensures m s one) (second : Ensures m' s' other) :
    Together m m' s s' fun b c t t' => post b c t t' ∧ one b t ∧ other c t' :=
  fun b c t t' hm hm' => ⟨h b c t t' hm hm', first b t hm, second c t' hm'⟩

theorem together_of_ensures {one : β → Run α P × Session σ → Prop}
    {other : γ → Run α P × Session τ → Prop} (first : Ensures m s one)
    (second : Ensures m' s' other) :
    Together m m' s s' fun b c t t' => one b t ∧ other c t' :=
  fun b c t t' hm hm' => ⟨first b t hm, second c t' hm'⟩

theorem together_pure {b : β} {c : γ} (h : post b c s s') : Together (pure b) (pure c) s s' post := by
  intro b c t t' hm hm'
  cases hm
  cases hm'
  exact h

theorem together_bind {f : β → Search σ α P β'} {f' : γ → Search τ α P γ'}
    {post : β' → γ' → Run α P × Session σ → Run α P × Session τ → Prop}
    (h : Together m m' s s' fun b c t t' => Together (f b) (f' c) t t' post) :
    Together (m >>= f) (m' >>= f') s s' post := by
  intro d d' u u' hm hm'
  obtain ⟨b, t, first, rest⟩ := of_run_bind hm
  obtain ⟨c, t', first', rest'⟩ := of_run_bind hm'
  exact h b c t t' first first' d d' u u' rest rest'

/-- A step that only the first run takes. -/
theorem together_left {f : β → Search σ α P β'}
    {post : β' → γ → Run α P × Session σ → Run α P × Session τ → Prop}
    (h : Ensures m s fun b t => Together (f b) m' t s' post) :
    Together (m >>= f) m' s s' post := by
  intro d c u t' hm hm'
  obtain ⟨b, t, first, rest⟩ := of_run_bind hm
  exact h b t first d c u t' rest hm'

/-- A step that only the second run takes. -/
theorem together_right {f : γ → Search τ α P γ'}
    {post : β → γ' → Run α P × Session σ → Run α P × Session τ → Prop}
    (h : Ensures m' s' fun c t' => Together m (f c) s t' post) :
    Together m (m' >>= f) s s' post := by
  intro b d t u' hm hm'
  obtain ⟨c, t', first, rest⟩ := of_run_bind hm'
  exact h c t' first b d t u' hm rest

theorem together_current {post : Run α P → Run α P → Run α P × Session σ → Run α P × Session τ → Prop}
    (h : post s.1 s'.1 s s') : Together current current s s' post := by
  intro b c t t' hm hm'
  cases hm
  cases hm'
  exact h

theorem together_update {change change' : Run α P → Run α P}
    {post : Unit → Unit → Run α P × Session σ → Run α P × Session τ → Prop}
    (h : post () () (change s.1, s.2) (change' s'.1, s'.2)) :
    Together (update change) (update change') s s' post := by
  intro b c t t' hm hm'
  cases hm
  cases hm'
  exact h

theorem together_ofExcept {r : Except Error β} {r' : Except Error γ}
    (h : ∀ b c, r = .ok b → r' = .ok c → post b c s s') :
    Together (ofExcept r) (ofExcept r') s s' post := by
  intro b c t t' hm hm'
  cases r with
  | error e => cases hm
  | ok x =>
    cases r' with
    | error e => cases hm'
    | ok y =>
      cases hm
      cases hm'
      exact h _ _ rfl rfl

/-- The rule for a check of each run before what follows. -/
theorem together_guard {c c' : Prop} [Decidable c] [Decidable c'] {e e' : Error}
    (h : Together m m' s s' post) :
    Together (if c then (throw e : Search σ α P β') >>= fun _ => m else m)
      (if c' then (throw e' : Search τ α P γ') >>= fun _ => m' else m') s s' post := by
  intro b d t t' hm hm'
  split at hm
  · obtain ⟨_, _, failed, _⟩ := of_run_bind hm
    cases failed
  · split at hm'
    · obtain ⟨_, _, failed, _⟩ := of_run_bind hm'
      cases failed
    · exact h b d t t' hm hm'

/-- The rule for one list that both go through. -/
theorem together_mapM {ι : Type} {xs : List ι} {f : ι → Search σ α P β} {f' : ι → Search τ α P γ}
    (R : β → γ → Prop) (inv : Run α P × Session σ → Run α P × Session τ → Prop) (first : inv s s')
    (step : ∀ x ∈ xs, ∀ s s', inv s s' →
      Together (f x) (f' x) s s' fun b c t t' => R b c ∧ inv t t') :
    Together (xs.mapM f) (xs.mapM f') s s' fun bs cs t t' => List.Forall₂ R bs cs ∧ inv t t' := by
  induction xs generalizing s s' with
  | nil => exact together_pure ⟨.nil, first⟩
  | cons x xs ih =>
    rw [List.mapM_cons, List.mapM_cons]
    apply together_bind
    refine (step x List.mem_cons_self s s' first).mono fun b c t t' ⟨related, kept⟩ => ?_
    apply together_bind
    refine (ih kept fun y hy => step y (List.mem_cons_of_mem _ hy)).mono ?_
    rintro bs cs u u' ⟨all, kept⟩
    exact together_pure ⟨.cons related all, kept⟩

open Draw

/-- Draws in step from one stream leave all streams in the same states. -/
theorem draw_together {R : β → γ → Prop} (id : StreamId) {d : Draw β} {d' : Draw γ}
    (streams : s.1.SameStreams s'.1) (h : InStep R d d') :
    Together (draw id d) (draw id d') s s' fun b c t t' => R b c ∧ t.1.SameStreams t'.1 ∧
      (Redrawn s.1 t.1 ∧ t.2 = s.2) ∧ Redrawn s'.1 t'.1 ∧ t'.2 = s'.2 := by
  refine (together_of_ensures (draw_drawn id d) (draw_drawn id d')).mono ?_
  rintro b c t t' ⟨⟨redrawn, session, drawn, others⟩, redrawn', session', drawn', others'⟩
  rw [← streams id] at drawn'
  obtain ⟨same, related⟩ := h _ _ _ _ _ drawn drawn'
  refine ⟨related, fun other => ?_, ⟨redrawn, session⟩, redrawn', session'⟩
  by_cases this : other = id
  · rw [this, same]
  · rw [others other this, others' other this, streams other]

/-- Draws in step, one for each individual, leave all streams in the same states. -/
theorem perIndividual_together {R : β → γ → Prop} {each : Nat → Draw β} {each' : Nat → Draw γ}
    (size : s'.1.popSize = s.1.popSize) (streams : s.1.SameStreams s'.1)
    (h : ∀ i < s.1.popSize, InStep R (each i) (each' i)) :
    Together (perIndividual each) (perIndividual each') s s' fun xs ys t t' =>
      List.Forall₂ R xs.toList ys.toList ∧ t.1.SameStreams t'.1 ∧
      (Redrawn s.1 t.1 ∧ t.2 = s.2) ∧ Redrawn s'.1 t'.1 ∧ t'.2 = s'.2 := by
  refine (together_of_ensures (perIndividual_drawn each) (perIndividual_drawn each')).mono ?_
  rintro xs ys t t' ⟨⟨count, redrawn, session, alone, others⟩, count', redrawn', session', alone',
    others'⟩
  rw [size] at count' alone' others'
  have both : ∀ i < s.1.popSize, ∃ b c, xs[i]? = some b ∧ ys[i]? = some c ∧ R b c ∧
      t.1.streams.get (.individual i) = t'.1.streams.get (.individual i) := by
    intro i inside
    obtain ⟨b, here, drawn⟩ := alone i inside
    obtain ⟨c, here', drawn'⟩ := alone' i inside
    rw [← streams] at drawn'
    obtain ⟨same, related⟩ := h i inside _ _ _ _ _ drawn drawn'
    exact ⟨b, c, here, here', related, same⟩
  refine ⟨?_, fun id => ?_, ⟨redrawn, session⟩, redrawn', session'⟩
  · rw [List.forall₂_iff_get]
    refine ⟨by simp [count, count'], fun i hi hi' => ?_⟩
    obtain ⟨b, c, here, here', related, -⟩ := both i (by simpa [count] using hi)
    rw [Array.getElem?_eq_some_iff] at here here'
    obtain ⟨_, rfl⟩ := here
    obtain ⟨_, rfl⟩ := here'
    exact related
  · by_cases own : ∃ i < s.1.popSize, id = .individual i
    · obtain ⟨i, inside, rfl⟩ := own
      obtain ⟨-, -, -, -, -, same⟩ := both i inside
      exact same
    · have outside : ∀ i < s.1.popSize, id ≠ .individual i :=
        fun i inside same => own ⟨i, inside, same⟩
      rw [others id outside, others' id outside, streams id]

end Search

end BoxSearch
