import BoxSearch.Archive.Incumbent
import BoxSearch.Archive.Front

/-!
The best of a run: an incumbent for one objective, a front for several.

Evaluated rows are handed over in batches. An incumbent looks at the best row of a batch only; a
front takes the rows one after another.
-/

namespace BoxSearch

/-- Evaluated rows with their payloads, if there are any. -/
structure Batch (α P : Type) where
  X : Rows α
  F : Rows α
  products : Option (Array (Option P))
deriving BEq

def Batch.product {α P : Type} (b : Batch α P) (i : Nat) : Option P :=
  b.products.bind fun ps => (ps[i]?).join

def Batch.points {α P : Type} [Scalar α] (b : Batch α P) : List (Row α × Row α × Option P) :=
  (List.range b.X.size).map fun i => (b.X.row i, b.F.row i, b.product i)

/-- The best points of a run. -/
inductive Tracker (α P : Type) where
  | single (incumbent : Incumbent α P)
  | several (front : Front α P)
deriving BEq

namespace Tracker

variable {α P : Type} [Scalar α]

/-- The tracker of a run before any point, for the number of objectives found. -/
def start (dim width : Nat) (limit : Value) : Except Error (Tracker α P) :=
  if width == 1 then .ok (.single .empty)
  else (Front.limitOf limit).map fun limit => .several (.empty dim width limit)

/-- The tracker after a batch, with the members of a front that were dropped for its limit. -/
def fold (t : Tracker α P) (b : Batch α P) : Tracker α P × List (Nat × Nat) :=
  match t with
  | single s => (.single (s.offerBatch b.X b.F b.product).2, [])
  | several s =>
    let tally := s.offerAll b.points
    (.several tally.front, tally.dropped.map fun i => (s.limit.getD 0, i))

def front? : Tracker α P → Option (Front α P)
  | single _ => none
  | several s => some s

def hasBest : Tracker α P → Bool
  | single s => s.point.isSome
  | several s => !s.members.isEmpty

end Tracker

end BoxSearch
