import BoxSearch.Scalar.Basic

/-!
The best point of a run with a single objective.

The incumbent changes only for a strictly smaller fitness, so of equally good points the first one
offered stays. The payload offered with a point comes and goes with it.
-/

namespace BoxSearch

/-- The best point offered so far with its fitness and payload. Before the first offer there is no
point and the fitness is infinite. -/
structure Incumbent (α P : Type) where
  point : Option (Row α)
  fitness : α
  product : Option P
deriving BEq

namespace Incumbent

variable {α P : Type} [Scalar α]

def empty : Incumbent α P := ⟨none, Scalar.infinity, none⟩

/-- The point, or the failure that none was offered. -/
def x (s : Incumbent α P) : Except Error (Row α) :=
  match s.point with
  | some x => .ok x
  | none => .error (.misuse .nothingOffered)

/-- The incumbent after one more point, and whether that point has taken its place. -/
def offer (s : Incumbent α P) (x : Row α) (f : α) (product : Option P) : Bool × Incumbent α P :=
  if s.point.isNone || decide (f < s.fitness) then (true, ⟨some x, f, product⟩) else (false, s)

/-- The incumbent after a batch: only the first best row of it is offered. -/
def offerBatch (s : Incumbent α P) (X F : Rows α) (product : Nat → Option P) :
    Bool × Incumbent α P :=
  match Scalar.argMin? (F.column 0) with
  | some i => s.offer (X.row i) ((F.row i).gene 0) (product i)
  | none => (false, s)

/-- `offerBatch` for loose arrays: as many fitness rows as points, and payloads that reach to the
best row. An empty batch has no rows that the fitness could be cut into. -/
def offerMany (s : Incumbent α P) (X : Rows α) (F : Tensor α) (products : Option (Array (Option P))) :
    Except Error (Bool × Incumbent α P) := do
  let (width, F) ← F.rowsCount X.size
  if width == 0 then throw (.fault .index)
  match products, Scalar.argMin? (F.column 0) with
  | some ps, some i => if ps.size ≤ i then throw (.fault .index)
  | _, _ => pure ()
  return s.offerBatch X F fun i => match products with
    | some ps => (ps[i]?).join
    | none => none

end Incumbent

end BoxSearch
