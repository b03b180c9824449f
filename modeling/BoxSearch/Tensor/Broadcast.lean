import BoxSearch.Tensor.Basic

/-!
Combining tensors of different shapes.

Shapes are aligned at their last dimension; a length of one, or a missing dimension, is stretched
to the length on the other side. Any other difference is a failure.
-/

namespace BoxSearch.Tensor

variable {α β γ : Type}

private def stretch? : List Nat → List Nat → Option (List Nat)
  | [], ms => some ms
  | ns, [] => some ns
  | n :: ns, m :: ms =>
    match stretch? ns ms with
    | some rest =>
      if n == m || m == 1 then some (n :: rest) else if n == 1 then some (m :: rest) else none
    | none => none

def commonShape? (a b : List Nat) : Option (List Nat) :=
  (stretch? a.reverse b.reverse).map List.reverse

private def offset : List Nat → List Nat → Nat → Nat → Nat
  | n :: ns, m :: ms, place, step =>
    (if n == 1 then 0 else place % m * step) + offset ns ms (place / m) (step * n)
  | _, _, _, _ => 0

/-- The entry of `t` at the given place of a larger shape that `t` is stretched to. -/
def stretchedEntry? (t : Tensor α) (shape : List Nat) (place : Nat) : Option α :=
  t.entries[offset t.shape.reverse shape.reverse place 1]?

/-- The tensor stretched to a shape it can be stretched to. -/
def stretchTo (shape : List Nat) (t : Tensor α) : Except Error (Tensor α) :=
  if commonShape? t.shape shape == some shape then
    .ok ⟨shape, (Array.range (places shape)).filterMap (t.stretchedEntry? shape)⟩
  else .error (.fault .value)

/-- Entry by entry combination of two tensors. -/
def combine (f : α → β → γ) (a : Tensor α) (b : Tensor β) : Except Error (Tensor γ) :=
  match commonShape? a.shape b.shape with
  | some shape =>
    .ok ⟨shape, (Array.range (places shape)).filterMap fun place =>
      match a.stretchedEntry? shape place, b.stretchedEntry? shape place with
      | some x, some y => some (f x y)
      | _, _ => none⟩
  | none => .error (.fault .value)

private theorem stretch?_append (ns ms : List Nat) : stretch? ns (ns ++ ms) = some (ns ++ ms) := by
  induction ns with
  | nil => rfl
  | cons n ns ih => simp [stretch?, ih]

private theorem stretch?_append_left (ns ms : List Nat) :
    stretch? (ns ++ ms) ns = some (ns ++ ms) := by
  induction ns with
  | nil => cases ms <;> rfl
  | cons n ns ih => simp [stretch?, ih]

/-- An array can be repeated along any further dimensions that come before its own. -/
theorem commonShape?_append (outer shape : List Nat) :
    commonShape? shape (outer ++ shape) = some (outer ++ shape) := by
  simp [commonShape?, stretch?_append]

theorem commonShape?_append_left (outer shape : List Nat) :
    commonShape? (outer ++ shape) shape = some (outer ++ shape) := by
  simp [commonShape?, stretch?_append_left]

private theorem offset_append (ns ms : List Nat) (place step : Nat) :
    offset ns (ns ++ ms) place step = place % places ns.reverse * step := by
  induction ns generalizing place step with
  | nil => simp [offset, places, Nat.mod_one]
  | cons n ns ih =>
    have here : (if (n == 1) = true then 0 else place % n * step) = place % n * step := by
      by_cases one : n = 1
      · simp [one, Nat.mod_one]
      · simp [one]
    have whole : places (n :: ns).reverse = n * places ns.reverse := by
      simp [places, Nat.mul_comm]
    rw [List.cons_append, offset, here, ih, whole, Nat.mod_mul, Nat.add_mul,
      Nat.mul_comm n (_ % _), Nat.mul_comm step n, Nat.mul_assoc]

/-- Behind further dimensions an array is repeated as a whole. -/
theorem stretchedEntry?_append (t : Tensor α) (outer : List Nat) (place : Nat) :
    t.stretchedEntry? (outer ++ t.shape) place = t.entries[place % places t.shape]? := by
  unfold stretchedEntry?
  rw [List.reverse_append, offset_append, List.reverse_reverse, Nat.mul_one]

end BoxSearch.Tensor
