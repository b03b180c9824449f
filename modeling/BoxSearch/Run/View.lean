import BoxSearch.Bounds.Basic

/-!
What callbacks, stopping rules and observers see of a run.

A view is a snapshot: looking at it, however long after, changes nothing and sees no later change.
-/

namespace BoxSearch

/-- The best fitness of a run: one number, or the fitness vector that represents a front. A text,
or anything else that is no fitness, stands for itself as `other` and cannot be compared. -/
inductive Best (α : Type) where
  | number (value : α)
  | vector (values : Row α)
  | other
deriving Repr, BEq

/-- The best fitness as a value: a number, or a tuple of numbers. -/
def Best.toValue : Best Float → Value
  | number f => .float f
  | vector f => .tuple (f.toList.map .float)
  | other => .absent

/-- A best fitness out of a value. Whatever is neither a number nor a list of numbers is kept as
something that cannot be compared. -/
def Best.ofValue (v : Value) : Best Float :=
  match v, v.toTensor with
  | .text _, _ => other
  | .list _, .ok t => vector t.entries
  | .tuple _, .ok t => vector t.entries
  | _, .ok t => number (t.entries.getD 0 0.0)
  | _, .error _ => other

/-- A snapshot of a run. -/
structure View (α : Type) [Scalar α] where
  generation : Int
  nEval : Int
  popSize : Int
  bounds : Option (Bounds α)
  X : Tensor α
  F : Option (Tensor α)
  nObj : Option Int
  bestX : Option (Tensor α)
  bestF : Option (Best α)
  frontX : Option (Tensor α)
  frontF : Option (Tensor α)

namespace View

variable {α : Type} [Scalar α]

/-- More than one objective has been found. -/
def isMultiObjective (v : View α) : Bool :=
  v.nObj.any (1 < ·)

/-- The snapshot as a record, without the box. -/
def toRecord (v : View Float) : Record :=
  [("generation", .int v.generation),
   ("n_eval", .int v.nEval),
   ("pop_size", .int v.popSize),
   ("X", .ofTensor v.X),
   ("F", .ofOption .ofTensor v.F),
   ("n_obj", .ofOption .int v.nObj),
   ("best_x", .ofOption .ofTensor v.bestX),
   ("best_f", .ofOption Best.toValue v.bestF),
   ("front_X", .ofOption .ofTensor v.frontX),
   ("front_F", .ofOption .ofTensor v.frontF),
   ("is_multi_objective", .bool v.isMultiObjective)]

/-- A snapshot out of a record; it has no box. -/
def ofRecord (r : Record) : Except Error (View Float) := do
  return {
    generation := ← (r.get "generation").toInt
    nEval := ← (r.get "n_eval").toInt
    popSize := ← (r.get "pop_size").toInt
    bounds := none
    X := ← (r.get "X").toTensor
    F := ← (r.get "F").toTensor?
    nObj := ← (r.get "n_obj").toInt?
    bestX := ← (r.get "best_x").toTensor?
    bestF := (r.get "best_f").present?.map Best.ofValue
    frontX := ← (r.get "front_X").toTensor?
    frontF := ← (r.get "front_F").toTensor? }

end View

end BoxSearch
