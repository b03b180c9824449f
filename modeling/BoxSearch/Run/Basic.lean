import BoxSearch.Archive.Tracker
import BoxSearch.Bounds.Basic
import BoxSearch.Random.Streams
import BoxSearch.Run.View

/-!
The state of one run.

A run owns a population with its fitness, the random streams, and the best points found so far. A
row whose position has changed since it was evaluated is stale. Evaluated rows wait in `pending`
until they are folded into the tracker. Positions enter the population through `move` and
`overwrite` only, and both move them into the box first.
-/

namespace BoxSearch

/-- What a swarm remembers from one generation to the next: velocities, and for every particle the
best place it has been to, with its fitness. -/
structure Swarm.Memory (α : Type) where
  velocity : Option (Rows α)
  bestX : Option (Rows α)
  bestF : Option (Rows α)
deriving BEq

def Swarm.Memory.empty {α : Type} : Swarm.Memory α := ⟨none, none, none⟩

/-- A remark attached to a run under a name: an array, or any other value. -/
inductive Note (α : Type) where
  | array (t : Tensor α)
  | other (v : Value)

/-- The state of one run. -/
structure Run (α P : Type) [Scalar α] where
  bounds : Bounds α
  popSize : Nat
  frontLimit : Value
  streams : Streams
  generation : Nat
  nEval : Nat
  X : Rows α
  F : Option (Rows α)
  stale : Array Bool
  nObj : Option Int
  tracker : Option (Tracker α P)
  pending : Array (Batch α P)
  nonFinite : Nat
  swarm : Swarm.Memory α
  remarks : List (String × Note α)

/-- One member of the population: its position, its fitness unless that is out of date, and its
share of every remark that has one entry per member. -/
structure Individual (α : Type) where
  x : Row α
  f : Option (Row α)
  notes : List (String × Tensor α)

/-- Writes values at places, one after another, so that the last value for a place stays. -/
def writeAt {β : Type} (xs : Array β) (places : List Nat) (values : Array β) : Array β :=
  (places.zip values.toList).foldl (fun xs (place, v) => xs.setIfInBounds place v) xs

/-- The place that an index stands for among `n`; negative indices count from the end. -/
def placeOf (n : Nat) (i : Int) : Except Error Nat :=
  if 0 ≤ i ∧ i < n then .ok i.toNat
  else if i < 0 ∧ -(n : Int) ≤ i then .ok (i + n).toNat
  else .error (.fault .index)

namespace Run

variable {α P : Type} [Scalar α]

/-- A run before anything has been sampled or evaluated: all rows are stale. -/
def start (bounds : Bounds α) (popSize : Nat) (nObj : Option Int) (frontLimit : Value)
    (seed : Nat) : Run α P where
  bounds
  popSize
  frontLimit
  streams := .start seed
  generation := 0
  nEval := 0
  X := Array.replicate popSize (Row.tabulate bounds.dim fun _ => Scalar.zero)
  F := none
  stale := Array.replicate popSize true
  nObj
  tracker := none
  pending := #[]
  nonFinite := 0
  swarm := .empty
  remarks := []

/-- The population size that a value asks for; there must be two individuals at least. -/
def popSizeOf (v : Value) : Except Error Nat := do
  let n ← v.toInt
  if n ≤ 1 then throw (.parameter "pop_size" v "an integer > 1" none) else return n.toNat

def dim (run : Run α P) : Nat := run.bounds.dim

/-- The fitness of the population, which must have been evaluated. -/
def fitness (run : Run α P) : Except Error (Rows α) :=
  match run.F with
  | some F => .ok F
  | none => .error (.misuse .notEvaluated)

/-- The number of objectives, once an evaluation has shown it. -/
def objectives (run : Run α P) : Option Int :=
  if run.tracker.isSome then run.nObj else none

/-- More than one objective has been found. -/
def isMultiObjective (run : Run α P) : Bool :=
  run.objectives.any (1 < ·)

def stalePlaces (run : Run α P) : List Nat :=
  (List.range run.popSize).filter fun i => run.stale.getD i false

/-- The front of a run with several objectives. -/
def front? (run : Run α P) : Option (Front α P) :=
  run.tracker.bind Tracker.front?

def hasBest (run : Run α P) : Bool :=
  run.tracker.any Tracker.hasBest

/-- The incumbent, if there is one with a point. -/
def incumbent? (run : Run α P) : Option (Row α × α × Option P) :=
  match run.tracker with
  | some (.single s) => s.point.map fun x => (x, s.fitness, s.product)
  | _ => none

/-- The best point: the incumbent, or the representative of the front. -/
def bestX (run : Run α P) : Except Error (Row α) :=
  match run.front?, run.incumbent? with
  | some front, _ => front.representative.map (·.x)
  | none, some (x, _, _) => .ok x
  | none, none => .error (.misuse .noSolution)

def bestF (run : Run α P) : Except Error (Best α) :=
  match run.front?, run.incumbent? with
  | some front, _ => front.representative.map fun m => .vector m.f
  | none, some (_, f, _) => .ok (.number f)
  | none, none => .error (.misuse .noSolution)

/-- The payload of the best point, if it came with one. -/
def bestProduct (run : Run α P) : Except Error (Option P) :=
  match run.front?, run.incumbent? with
  | some front, _ => front.representative.map (·.product)
  | none, some (_, _, product) => .ok product
  | none, none => .error (.misuse .noSolution)

/-- Where strategies look for a good point: a random member of the front, or the best point. -/
def sampleLeader {m : Type → Type} [Monad m] [MonadExceptOf Error m] [RandomSource m]
    (run : Run α P) : m (Row α) :=
  match run.front? with
  | some front =>
    if front.members.isEmpty then MonadExcept.ofExcept run.bestX
    else return (← front.sample).1
  | none => MonadExcept.ofExcept run.bestX

def places (run : Run α P) (indices : List Int) : Except Error (List Nat) :=
  indices.mapM (placeOf run.popSize)

/-- The population with rows put at places, after they were moved into the box. -/
def put (run : Run α P) (places : List Nat) (X : Rows α) : Run α P :=
  { run with X := writeAt run.X places (run.bounds.clipRows X) }

def mark (run : Run α P) (places : List Nat) (stale : Bool) : Run α P :=
  { run with stale := writeAt run.stale places (Array.replicate places.length stale) }

/-- Moves rows; what was known of their fitness is out of date. -/
def move (run : Run α P) (places : List Nat) (X : Rows α) : Run α P :=
  (run.put places X).mark places true

def moveAll (run : Run α P) (X : Rows α) : Run α P :=
  run.move (List.range run.popSize) X

/-- Sets the fitness of evaluated rows; before the first of them, all fitness is infinite. -/
def settle (run : Run α P) (places : List Nat) (F : Rows α) : Run α P :=
  let width := (F.row 0).size
  let known := run.F.getD
    (Array.replicate run.popSize (Row.tabulate width fun _ => Scalar.infinity))
  { run with F := some (writeAt known places F) }.mark places false

/-- Sets the fitness of rows of an evaluated population. -/
def rate (run : Run α P) (places : List Nat) (F : Rows α) : Run α P :=
  { run with F := run.F.map (writeAt · places F) }.mark places false

/-- Overwrites rows of an evaluated population, position and fitness together. -/
def overwrite (run : Run α P) (places : List Nat) (X F : Rows α) : Run α P :=
  (run.put places X).rate places F

def fitnessAt (F : Rows α) (places : List Nat) : Rows α :=
  (places.map F.row).toArray

/-- The entries of a batch that a mask selects. -/
def selected {β : Type} (mask : Array Bool) (xs : List β) : List β :=
  ((mask.toList.zip xs).filter (·.1)).map (·.2)

/-- Rows take new positions and fitness where these are not worse than what they have, given the
stored fitness `F`; the mask tells which. -/
def accept (run : Run α P) (F : Rows α) (places : List Nat) (newX newF : Rows α) :
    Array Bool × Run α P :=
  let mask := Dominance.notWorseRows newF (fitnessAt F places)
  (mask, run.overwrite (selected mask places) (selected mask newX.toList).toArray
    (selected mask newF.toList).toArray)

/-- The run with the crowding distances of its front at hand. -/
def measureFront (run : Run α P) : Run α P :=
  match run.tracker with
  | some (.several front) => { run with tracker := some (.several front.measured) }
  | _ => run

def completeGeneration (run : Run α P) : Run α P :=
  { run with generation := run.generation + 1 }

def view (run : Run α P) : View α where
  generation := run.generation
  nEval := run.nEval
  popSize := run.popSize
  bounds := some run.bounds
  X := .ofRows run.dim run.X
  F := run.F.map fun F => .ofRows (F.row 0).size F
  nObj := run.objectives
  bestX := run.bestX.toOption.map .ofRow
  bestF := run.bestF.toOption
  frontX := run.front?.map fun s => .ofRows s.nVar s.X
  frontF := run.front?.map fun s => .ofRows s.nObj s.F

end Run

end BoxSearch
