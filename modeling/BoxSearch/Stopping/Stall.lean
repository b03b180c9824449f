import BoxSearch.Run.View
import BoxSearch.Error.Basic

/-!
Counting generations without progress.

With one objective, progress is a best fitness that falls by more than a tolerance below the one
last marked; with several, any change of the front. Progress sets a new mark and the count back to
zero.
-/

namespace BoxSearch

/-- What progress is measured from. -/
inductive Mark (α : Type) where
  | best (f : Best α)
  | front (F : Tensor α)

/-- The mark of a run that waits for progress, and the generations since it was set. -/
structure Stall (α : Type) where
  mark : Option (Mark α)
  stalled : Nat

namespace Stall

variable {α : Type} [Scalar α]

/-- What a view would be marked by: its front with several objectives, else its best fitness. -/
def markOf (view : View α) : Option (Mark α) :=
  if view.isMultiObjective then view.frontF.map .front else view.bestF.map .best

def start (view : View α) : Stall α := ⟨markOf view, 0⟩

def unmarked : Stall α := ⟨none, 0⟩

/-- Two arrays have one shape and equal entries. -/
def sameArray (t u : Tensor α) : Bool :=
  t.shape == u.shape && t.entries.size == u.entries.size &&
    (List.range t.entries.size).all fun i =>
      t.entries.getD i Scalar.zero == u.entries.getD i Scalar.zero

/-- The current mark is progress over the earlier one. Marks that cannot be compared are a
failure. -/
def improved (tol : α) (earlier current : Option (Mark α)) : Except Error Bool :=
  match earlier, current with
  | none, current => .ok current.isSome
  | some (.front t), some (.front u) => .ok (!sameArray t u)
  | some (.best _), some (.front _) => .error (.fault .attribute)
  | some (.best (.number b)), some (.best (.number c)) => .ok (decide (c < b - tol))
  | some (.front t), some (.best (.number c)) =>
    if t.entries.size == 1 then .ok (decide (c < t.entries.getD 0 Scalar.zero - tol))
    else .error (.fault .value)
  | _, _ => .error (.fault .type)

def observe (tol : α) (s : Stall α) (view : View α) : Except Error (Stall α) := do
  let current := markOf view
  if ← improved tol s.mark current then return ⟨current, 0⟩
  else return { s with stalled := s.stalled + 1 }

end Stall

end BoxSearch
