import BoxSearch.Run.View
import BoxSearch.Tensor.Basic
import BoxSearch.Value.Same

/-!
What a run reports.

A snapshot sums up one generation; a result sums up the run and holds all snapshots. Both are
written over the type of their fitness values: a run reports a `Best`, a record put together
elsewhere may hold any value.
-/

namespace BoxSearch

/-- A summary of one generation. The mean is taken over the population. -/
structure Snapshot (φ : Type) where
  generation : Int
  nEval : Int
  best : φ
  mean : φ
  frontSize : Int
  record : Value

/-- The outcome of a run. -/
structure Result (φ : Type) where
  bestX : Tensor Float
  best : φ
  frontX : Option (Tensor Float)
  frontF : Option (Tensor Float)
  history : List (Snapshot φ)
  nEval : Int
  nObj : Int
  seed : Int
  generations : Int
  algorithm : String
  product : Option Value
  frontProducts : Option (List (Option Value))

namespace Snapshot

def toRecord (s : Snapshot (Best Float)) : Record :=
  [("generation", .int s.generation),
   ("n_eval", .int s.nEval),
   ("best_f", s.best.toValue),
   ("mean_f", s.mean.toValue),
   ("front_size", .int s.frontSize),
   ("record", s.record)]

/-- A snapshot out of a record, whatever its fitness is. -/
def ofRecord (r : Record) : Except Error (Snapshot Value) := do
  return {
    generation := ← (r.get "generation").toInt
    nEval := ← (r.get "n_eval").toInt
    best := r.get "best_f"
    mean := r.get "mean_f"
    frontSize := (← (r.get "front_size").toInt?).getD 0
    record := r.get "record" }

/-- Two snapshots tell the same, where `same` compares fitness values. -/
def sameAs {φ : Type} (same : φ → φ → Bool) (a b : Snapshot φ) : Bool :=
  a.generation == b.generation && a.nEval == b.nEval && same a.best b.best &&
    same a.mean b.mean && a.frontSize == b.frontSize && a.record.same b.record

end Snapshot

namespace Result

variable {φ : Type}

def isMultiObjective (r : Result φ) : Bool :=
  decide (1 < r.nObj)

/-- The best fitness of every generation as one array. -/
def bestHistory (toValue : φ → Value) (r : Result φ) : Except Error (Tensor Float) :=
  (Value.list (r.history.map fun s => toValue s.best)).toTensor

/-- The number of rows of the front, zero without one. -/
def frontSize (r : Result φ) : Except Error Nat :=
  match r.frontF with
  | none => .ok 0
  | some F => match F.shape with
    | [] => .error (.fault .index)
    | count :: _ => .ok count

def summary (toValue : φ → Value) (r : Result φ) : Except Error Record := do
  let facts : Record :=
    [("algorithm", .text r.algorithm), ("seed", .int r.seed), ("generations", .int r.generations),
     ("n_eval", .int r.nEval), ("n_obj", .int r.nObj)]
  if r.isMultiObjective then return facts ++ [("front_size", .int (← r.frontSize))]
  else return facts ++ [("best_f", .float (← (toValue r.best).toFloat))]

/-- What a run was after: the front with several objectives, the best fitness otherwise. -/
inductive Aim (φ : Type) where
  | front (X F : Option (Tensor Float))
  | fitness (best : φ)

def aim (r : Result φ) : Aim φ :=
  if r.isMultiObjective then .front r.frontX r.frontF else .fitness r.best

def aimValue (toValue : φ → Value) (r : Result φ) : Value :=
  match r.aim with
  | .front X F => .tuple [.ofOption .ofTensor X, .ofOption .ofTensor F]
  | .fitness best => toValue best

/-- A result out of a record and its history, whatever its fitness is. -/
def ofRecord (r : Record) (history : List (Snapshot Value)) : Except Error (Result Value) := do
  return {
    bestX := ← (r.get "best_x").toTensor
    best := r.get "best_f"
    frontX := ← (r.get "front_X").toTensor?
    frontF := ← (r.get "front_F").toTensor?
    history
    nEval := ← (r.get "n_eval").toInt
    nObj := ← (r.get "n_obj").toInt
    seed := ← (r.get "seed").toInt
    generations := ← (r.get "generations").toInt
    algorithm := (r.get "algorithm").plain
    product := (r.get "product").present?
    frontProducts := (r.get "front_products").parts?.map (·.map Value.present?) }

/-- The result as a record, with everything that follows from it. -/
def toRecord (r : Result (Best Float)) : Except Error Record := do
  let history ← r.bestHistory Best.toValue
  let summary ← r.summary Best.toValue
  return [
    ("best_x", .ofTensor r.bestX),
    ("best_f", r.best.toValue),
    ("front_X", .ofOption .ofTensor r.frontX),
    ("front_F", .ofOption .ofTensor r.frontF),
    ("history", .list (r.history.map fun s => .record s.toRecord)),
    ("n_eval", .int r.nEval),
    ("n_obj", .int r.nObj),
    ("seed", .int r.seed),
    ("generations", .int r.generations),
    ("algorithm", .text r.algorithm),
    ("product", r.product.getD .absent),
    ("front_products",
      .ofOption (fun ps => .list (ps.map fun p => p.getD .absent)) r.frontProducts),
    ("is_multi_objective", .bool r.isMultiObjective),
    ("best_history", .ofTensor history),
    ("summary", .record summary),
    ("best_fitness_or_front", r.aimValue Best.toValue)]

end Result

end BoxSearch
