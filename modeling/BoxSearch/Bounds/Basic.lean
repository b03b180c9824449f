import BoxSearch.Scalar.Basic

/-!
The box that a search stays in.

A box has at least one dimension and a finite interval in each. `Bounds.ofRows?` is the only way to
one from loose numbers, and it says which condition fails.
-/

namespace BoxSearch

/-- A finite, non-empty interval per dimension. -/
structure Bounds (α : Type) [Scalar α] where
  lower : Row α
  upper : Row α
  sameSize : upper.size = lower.size
  nonempty : 0 < lower.size
  finite : ∀ j < lower.size,
    Scalar.isFinite (lower.gene j) = true ∧ Scalar.isFinite (upper.gene j) = true
  ordered : ∀ j < lower.size, lower.gene j ≤ upper.gene j

namespace Bounds

variable {α : Type} [Scalar α]

def dim (b : Bounds α) : Nat := b.lower.size

def span (b : Bounds α) : Row α :=
  Row.tabulate b.dim fun j => b.upper.gene j - b.lower.gene j

/-- A vector moved into the box, entry by entry. -/
def clip (b : Bounds α) (x : Row α) : Row α :=
  Row.tabulate b.dim fun j => Scalar.clamp (x.gene j) (b.lower.gene j) (b.upper.gene j)

def holds (b : Bounds α) (x : Row α) : Bool :=
  (List.range b.dim).all fun j =>
    decide (b.lower.gene j ≤ x.gene j) && decide (x.gene j ≤ b.upper.gene j)

/-- All vectors of a batch moved into the box. -/
def clipRows (b : Bounds α) (X : Rows α) : Rows α := X.map b.clip

/-- All vectors of a batch lie in the box. -/
def holdsRows (b : Bounds α) (X : Rows α) : Bool := X.all b.holds

/-- The intervals, one pair per dimension. -/
def pairs (b : Bounds α) : List (α × α) :=
  (List.range b.dim).map fun j => (b.lower.gene j, b.upper.gene j)

/-- Two boxes with numerically equal borders. -/
def same (b c : Bounds α) : Bool :=
  b.lower.same c.lower && b.upper.same c.upper

/-- A box from its lower and upper borders, or the reason why they form none. -/
def ofBorders? (lower upper : Row α) (sameSize : upper.size = lower.size) :
    Except Error (Bounds α) :=
  if nonempty : 0 < lower.size then
    if finite : ∀ j < lower.size,
        Scalar.isFinite (lower.gene j) = true ∧ Scalar.isFinite (upper.gene j) = true then
      if ordered : ∀ j < lower.size, lower.gene j ≤ upper.gene j then
        .ok { lower, upper, sameSize, nonempty, finite, ordered }
      else
        .error (.bounds (.inverted
          ((List.range lower.size).filter fun j => decide (upper.gene j < lower.gene j))))
    else .error (.bounds .notFinite)
  else .error (.bounds .noDimension)

/-- A box from rows of two numbers, low and high. -/
def ofRows? (rows : Rows α) : Except Error (Bounds α) :=
  ofBorders? (rows.map (·.gene 0)) (rows.map (·.gene 1)) (by simp)

end Bounds

end BoxSearch
