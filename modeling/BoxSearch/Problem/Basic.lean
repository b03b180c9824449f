import BoxSearch.Bounds.Tensor
import BoxSearch.Session

/-!
What is minimised.

A problem is a box with an objective. The objective answers one parameter vector with a number or a
flat list of numbers, or, when flagged so, with a pair of that and a payload. Its answers are loose
values; a problem checks them and stacks them into a block of equal rows.
-/

namespace BoxSearch

/-- What a batch evaluation returns: an array of fitness values, and one payload per row if there
are any. -/
structure Block (α P : Type) where
  fitness : Tensor α
  products : Option (Array (Option P))

def Block.toRecord (block : Block Float Value) : Record :=
  [("F", .ofTensor block.fitness), ("products", .ofOption .ofProducts block.products)]

/-- A box with an objective. -/
structure Problem (σ : Type) where
  bounds : Bounds Float
  objective : Row Float → Call σ Value
  nObj : Option Nat
  name : String
  returnsProduct : Bool

namespace Problem

variable {σ : Type}

/-- The number of objectives that a problem may declare: none, or a positive number. -/
def declaredCount : Value → Except Error (Option Nat)
  | .absent => .ok none
  | v => do
    let n ← v.toInt
    if n ≤ 0 then throw (.misuse .noObjectives) else return some n.toNat

/-- Calls the objective at one point; answers its fitness value and its payload. -/
def answerAt (p : Problem σ) (x : Row Float) : Act σ (Value × Option Value) := do
  match ← Act.attempt (p.objective x) with
  | .error failure => throw (.evaluation (.raised p.name failure.kind failure.shown) (some x))
  | .ok answer =>
    if p.returnsProduct then
      match answer with
      | .tuple [fitness, product] => return (fitness, some product)
      | other => throw (.evaluation (.noProduct p.name other) (some x))
    else return (answer, none)

/-- The fitness vector that an answer stands for: a number or a flat, non-empty list of numbers. -/
def fitnessOf (p : Problem σ) (x : Row Float) (answer : Value) : Except Error (Row Float) :=
  match answer.toTensor with
  | .error (.fault .overflow) => .error (.fault .overflow)
  | .error _ => .error (.evaluation (.notNumeric p.name answer) (some x))
  | .ok t =>
    match t.shape with
    | [] => .ok t.entries
    | [n] =>
      if n == 0 then .error (.evaluation (.shape p.name t.dims) (some x)) else .ok t.entries
    | _ => .error (.evaluation (.shape p.name t.dims) (some x))

def evaluateOne (p : Problem σ) (x : Row Float) : Act σ (Row Float) := do
  let (answer, _) ← p.answerAt x
  p.fitnessOf x answer

/-- The first row that differs in width from the first one. -/
def uneven? (rows : Rows Float) : Option Nat :=
  (List.range rows.size).find? fun i => (rows.row i).size != (rows.row 0).size

/-- The rows of a batch as one array, which must have the declared width if one is declared. -/
def stack (p : Problem σ) (X rows : Rows Float) : Except Error (Tensor Float) :=
  match rows[0]? with
  | none => .ok (.ofRows (p.nObj.getD 1) #[])
  | some first =>
    match uneven? rows with
    | some i =>
      .error (.evaluation (.unevenRow p.name (rows.row i).size i first.size) (some (X.row i)))
    | none =>
      match p.nObj with
      | some n =>
        if first.size != n then
          .error (.evaluation (.declaredWidth (some p.name) first.size n) none)
        else .ok (.ofRows first.size rows)
      | none => .ok (.ofRows first.size rows)

/-- Fitness vector and payload of every row, in order. -/
def answersOf (p : Problem σ) (X : Rows Float) : Act σ (Array (Row Float × Option Value)) :=
  X.mapM fun x => do
    let (answer, product) ← p.answerAt x
    let f ← p.fitnessOf x answer
    return (f, product)

def evaluate (p : Problem σ) (X : Rows Float) : Act σ (Block Float Value) := do
  let answers ← p.answersOf X
  let fitness ← p.stack X (answers.map (·.1))
  return ⟨fitness, if p.returnsProduct then some (answers.map (·.2)) else none⟩

/-- The problem as it is shown in messages. -/
def shown (p : Problem σ) : String :=
  "Problem(name=" ++ Text.quoted p.name ++ ", n_var=" ++ toString p.bounds.dim ++ ", n_obj=" ++
    (match p.nObj with | some n => toString n | none => "None") ++ ")"

/-- What is known of a problem, as a record. -/
def toRecord (p : Problem σ) : Record :=
  [("type", .text "Problem"), ("repr", .text p.shown), ("n_var", .int p.bounds.dim),
   ("n_obj", .ofOption (fun n => .int n) p.nObj), ("name", .text p.name)]

end Problem

/-- Bounds as they are handed in: a box, or a value to read one from. -/
inductive BoundsSource where
  | box (bounds : Bounds Float)
  | pairs (v : Value)

def BoundsSource.resolve : BoundsSource → Except Error (Bounds Float)
  | box bounds => .ok bounds
  | pairs v => Bounds.ofValue v

/-- A problem as it is put together: anything may be missing or of the wrong kind. An absent
objective stands for something that cannot be called. -/
structure Problem.Parts (σ : Type) where
  bounds : BoundsSource
  objective : Option (Row Float → Call σ Value)
  nObj : Value
  name : String
  returnsProduct : Bool

/-- A problem from its parts, or what is wrong with the first part that is wrong. A problem without
a name is called `objective`. -/
def Problem.ofParts {σ : Type} (parts : Problem.Parts σ) : Except Error (Problem σ) :=
  match parts.objective with
  | none => .error (.misuse .objectiveNotCallable)
  | some objective => do
    let bounds ← parts.bounds.resolve
    let nObj ← declaredCount parts.nObj
    return {
      bounds, objective, nObj, returnsProduct := parts.returnsProduct
      name := if parts.name.isEmpty then "objective" else parts.name }

/-- Whatever can be minimised: a problem, or an object with a box and a batch evaluation of its
own. Such an object may declare a number of objectives; its type name stands for a name. -/
inductive Target (σ : Type) where
  | problem (p : Problem σ)
  | evaluator (type : String) (bounds : Bounds Float) (nObj : Option Int)
      (evaluate : Rows Float → Call σ (Tensor Float))

namespace Target

variable {σ : Type}

def bounds : Target σ → Bounds Float
  | problem p => p.bounds
  | evaluator _ bounds _ _ => bounds

def nObj : Target σ → Option Int
  | problem p => p.nObj.map Int.ofNat
  | evaluator _ _ nObj _ => nObj

def name : Target σ → String
  | problem p => p.name
  | evaluator type _ _ _ => type

def evaluate : Target σ → Rows Float → Act σ (Block Float Value)
  | problem p, X => p.evaluate X
  | evaluator _ _ _ evaluate, X => do
    return ⟨← Act.call (evaluate X), none⟩

end Target

/-- What a caller offers to be minimised. -/
inductive Target.Source (σ : Type) where
  | target (t : Target σ)
  | pair (bounds : BoundsSource) (objective : Row Float → Call σ Value)
  | other

/-- The target meant by a source; a pair of bounds and objective becomes a plain problem. -/
def Target.ofSource {σ : Type} : Target.Source σ → Except Error (Target σ)
  | .target t => .ok t
  | .pair bounds objective =>
    (Problem.ofParts ⟨bounds, some objective, .absent, "", false⟩).map .problem
  | .other => .error (.misuse .notAProblem)

end BoxSearch
