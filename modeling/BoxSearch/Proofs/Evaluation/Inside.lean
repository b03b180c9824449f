import BoxSearch.Proofs.Run.Boxed

/-!
What backends show an objective.

A property of the user's state that every call of the objective at a point of the box keeps is kept
by whole evaluations, as long as their rows lie in the box: whether in one piece or in chunks, rows
are handed on as they are.
-/

namespace BoxSearch

variable {σ β γ : Type} {J : σ → Prop}

namespace Act

/-- The effect keeps a property of the user's state, also if it fails. -/
def Keeps (J : σ → Prop) (a : Act σ β) : Prop :=
  ∀ session, J session.user → J (a.run session).2.user

theorem keeps_pure (b : β) : Keeps J (pure b : Act σ β) :=
  fun _ h => h

theorem keeps_throw (e : Error) : Keeps J (throw e : Act σ β) :=
  fun _ h => h

theorem keeps_bind {a : Act σ β} {f : β → Act σ γ} (first : Keeps J a)
    (next : ∀ b, Keeps J (f b)) : Keeps J (a >>= f) := by
  intro session h
  have h' := first session h
  rw [run_bind]
  cases answered : a.run session with
  | mk r session' =>
    rw [answered] at h'
    cases r with
    | error e => exact h'
    | ok b => exact next b session' h'

theorem keeps_liftM (r : Except Error β) : Keeps J (liftM r : Act σ β) := by
  intro session h
  rwa [run_liftM]

theorem keeps_attempt {call : Call σ β} (h : ∀ u, J u → J (call.run u).2) :
    Keeps J (attempt call) :=
  fun session kept => h session.user kept

theorem keeps_call {call : Call σ β} (h : ∀ u, J u → J (call.run u).2) : Keeps J (Act.call call) := by
  refine keeps_bind (keeps_attempt h) fun r => ?_
  cases r with
  | ok b => exact keeps_pure b
  | error failure => exact keeps_throw _

theorem keeps_outcome {a : Act σ β} (h : Keeps J a) : Keeps J (outcome a) :=
  h

theorem keeps_mapM {ι : Type} {f : ι → Act σ β} {xs : List ι} (each : ∀ x ∈ xs, Keeps J (f x)) :
    Keeps J (xs.mapM f) := by
  induction xs with
  | nil => exact keeps_pure _
  | cons x xs ih =>
    rw [List.mapM_cons]
    refine keeps_bind (each x List.mem_cons_self) fun b => keeps_bind ?_ fun bs => keeps_pure _
    exact ih fun y hy => each y (List.mem_cons_of_mem _ hy)

theorem keeps_mapM_array {ι : Type} {f : ι → Act σ β} {xs : Array ι}
    (each : ∀ x ∈ xs, Keeps J (f x)) : Keeps J (xs.mapM f) := by
  rw [Array.mapM_eq_mapM_toList, ← bind_pure_comp]
  refine keeps_bind (keeps_mapM fun x hx => each x ?_) fun bs => keeps_pure _
  exact Array.mem_toList_iff.mp hx

end Act

namespace Target

open Act

/-- Called at points of the box only, the target keeps a property of the user's state. -/
def Keeps (J : σ → Prop) : Target σ → Prop
  | problem p => ∀ x, p.bounds.Inside x → ∀ u, J u → J ((p.objective x).run u).2
  | evaluator _ bounds _ evaluate => ∀ X : Rows Float, (∀ x ∈ X, bounds.Inside x) → ∀ u, J u →
    J ((evaluate X).run u).2

theorem keeps_evaluate {target : Target σ} (h : target.Keeps J) {X : Rows Float}
    (inside : ∀ x ∈ X, target.bounds.Inside x) : Act.Keeps J (target.evaluate X) := by
  cases target with
  | evaluator type bounds nObj evaluate =>
    exact keeps_bind (keeps_call (h X inside)) fun _ => keeps_pure _
  | problem p =>
    have answer (x : Row Float) (hx : x ∈ X) : Act.Keeps J (p.answerAt x) := by
      refine keeps_bind (keeps_attempt (h x (inside x hx))) fun r => ?_
      cases r with
      | error failure => exact keeps_throw _
      | ok answer =>
        dsimp only
        split
        · split
          · exact keeps_pure _
          · exact keeps_throw _
        · exact keeps_pure _
    have answers : Act.Keeps J (p.answersOf X) := by
      refine keeps_mapM_array fun x hx => keeps_bind (answer x hx) fun r => ?_
      exact keeps_bind (keeps_liftM _) fun _ => keeps_pure _
    refine keeps_bind answers fun rows => keeps_bind (keeps_liftM _) fun fitness => ?_
    exact keeps_pure _

end Target

namespace Backend

open Act

/-- Backends show the target what they are shown themselves. -/
theorem keeps_evaluate {backend : Backend σ} {target : Target σ} (h : target.Keeps J)
    (foreign : ∀ type evaluate, backend = .custom type evaluate →
      Evaluator.Keeps target.bounds J (evaluate target)) :
    Evaluator.Keeps target.bounds J (backend.evaluate target) := by
  intro rows inside
  have whole : Act.Keeps J (target.evaluate rows) := Target.keeps_evaluate h inside
  have chunked (workers : Nat) (chunk : Option Int) :
      Act.Keeps J (evaluateWith workers chunk target rows) := by
    rw [evaluateWith]
    split
    · exact whole
    · refine keeps_bind (keeps_mapM fun slice _ => ?_) fun arrived => keeps_liftM _
      have shown : Act.Keeps J (target.evaluate (rows.extract slice.start slice.stop)) :=
        Target.keeps_evaluate h fun x hx => inside x (mem_of_mem_extract hx)
      exact keeps_bind (keeps_outcome shown) fun result => keeps_pure _
  cases backend with
  | serial => exact whole
  | threads workers chunk => exact chunked workers chunk
  | jobs workers chunk => exact chunked workers chunk
  | custom type evaluate => exact foreign type evaluate rfl rows inside

end Backend

end BoxSearch
