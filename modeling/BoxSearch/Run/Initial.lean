import BoxSearch.Run.Population
import BoxSearch.Run.Search

/-!
The first population of a run.

Uniform and normal rows come from the streams of the individuals, so that a row depends neither on
the size of the population nor on the other rows. A latin hypercube concerns all rows at once and
comes from the driver's stream: every dimension is cut into as many strata as there are rows, and
each stratum holds one row.
-/

namespace BoxSearch

/-- Ways to sample a first population. A `filtered` sample redraws each row until it is accepted; a
`custom` one comes from a function of the caller. -/
inductive Initializer (σ : Type) where
  | uniform
  | latin
  | normal (mean std : Tensor Float)
  | filtered (accepts : Row Float → Call σ Value) (tries : Nat)
  | custom (sample : Call σ Value)

namespace Initial

variable {α : Type} [Scalar α]

/-- A row of uniform draws, spread over the box. An interval between the two zeros has a length
with a sign, which no draw accepts. -/
def uniformRow (bounds : Bounds α) : Draw (Row α) := do
  let span := bounds.span
  if span.any fun s => !Scalar.isFinite s then throw (.fault .overflow)
  if span.any fun s => decide (Scalar.one / s < Scalar.zero) then throw (.fault .value)
  let draws ← Draw.times bounds.dim Draw.unit
  return Row.tabulate bounds.dim fun j =>
    bounds.lower.gene j + span.gene j * Scalar.ofFloat (draws.getD j 0.0)

/-- A row of normal draws with a mean and a spread for every dimension. -/
def normalRow (mean std : Row Float) : Draw (Row Float) := do
  MonadExcept.ofExcept (Draw.checkSpread std)
  (List.range mean.size).foldlM (fun row j => do
    return row.push (← RandomSource.normal (mean.gene j) (std.gene j))) #[]

/-- One point in each of `n` equal strata of the unit interval, at the given offsets. -/
def strata (n : Nat) (offsets : Row α) : Row α :=
  Row.tabulate n fun k => (Scalar.ofNat k + offsets.gene k) / Scalar.ofNat n

/-- The strata of one dimension in random order. -/
def latinColumn (n : Nat) : Draw (Row α) := do
  let offsets ← Draw.times n Draw.unit
  Draw.shuffled (strata n (offsets.map Scalar.ofFloat))

/-- Rows from columns of the unit interval, spread over the box. -/
def spread (bounds : Bounds α) (n : Nat) (columns : Rows α) : Rows α :=
  let span := bounds.span
  (Array.range n).map fun i => Row.tabulate bounds.dim fun j =>
    bounds.lower.gene j + (columns.row j).gene i * span.gene j

def latinRows (bounds : Bounds α) (n : Nat) : Draw (Rows α) := do
  return spread bounds n (← Draw.times bounds.dim (latinColumn n))

variable {σ P : Type}

/-- Draws uniform rows for individual `i` until one is accepted, `fuel` of them at most. -/
def firstAccepted (bounds : Bounds Float) (accepts : Row Float → Call σ Value) (tries i : Nat) :
    Nat → Search σ Float P (Row Float)
  | 0 => throw (.configuration (.filterExhausted tries i))
  | fuel + 1 => do
    let x ← Search.draw (.individual i) (uniformRow bounds)
    let verdict ← Search.act (Act.call (accepts x))
    if verdict.truthy then return x else firstAccepted bounds accepts tries i fuel

/-- The first accepted row of every individual. -/
def filteredRows (bounds : Bounds Float) (accepts : Row Float → Call σ Value) (tries popSize : Nat) :
    Search σ Float P (Rows Float) :=
  (List.range popSize).foldlM
    (fun X i => return X.push (← firstAccepted bounds accepts tries i tries)) #[]

/-- Samples rows for the first population; not yet checked or moved into the box. -/
def sample (initializer : Initializer σ) : Search σ Float P (Tensor Float) := do
  let run ← Search.current
  let ofRows (rows : Rows Float) : Tensor Float := .ofRows run.dim rows
  match initializer with
  | .uniform => return ofRows (← Search.perIndividual fun _ => uniformRow run.bounds)
  | .latin => return ofRows (← Search.draw .driver (latinRows run.bounds run.popSize))
  | .normal mean std =>
    let mean ← Search.ofExcept (mean.stretchTo [run.dim])
    let std ← Search.ofExcept (std.stretchTo [run.dim])
    return ofRows (← Search.perIndividual fun _ => normalRow mean.entries std.entries)
  | .filtered accepts tries => return ofRows (← filteredRows run.bounds accepts tries run.popSize)
  | .custom sample => Search.ofExcept (← Search.act (Act.call sample)).toTensor

/-- Samples a first population and moves it into the box. -/
def populate (initializer : Initializer σ) : Search σ Float P Unit := do
  let pool ← sample initializer
  let run ← Search.current
  let expected : List Nat := [run.popSize, run.dim]
  if pool.shape != expected then
    throw (.configuration (.initializerShape pool.dims (expected.map Int.ofNat)))
  Search.setPositions pool none

/-- The number of objectives that a population taken over must have: the declared one, until an
evaluation has shown it. -/
def declaredObjectives (run : Run α P) : Option Int :=
  if run.tracker.isSome then none else run.nObj

/-- Takes over a population given as values. -/
def adopt (X F : Value) : Search σ Float P Unit := do
  let run ← Search.current
  let p ← Search.ofExcept
    (Population.ofValues X F (.int run.popSize) run.bounds (declaredObjectives run))
  Search.seed p.X p.F p.width

/-- Takes over a population given as a pair of values. -/
def adoptPair (pair : Value) : Search σ Float P Unit :=
  match pair.parts? with
  | some [X, F] => adopt X F
  | _ => throw (.fault .type)

end Initial

namespace Initializer

variable {σ : Type}

/-- Normal rows around a mean, which may differ between dimensions. -/
def ofNormal (mean std : Value) : Except Error (Initializer σ) := do
  let center ← mean.toTensor
  let spread ← std.toTensor
  if spread.entries.any (· < 0.0) || !spread.entries.all Float.isFinite then
    throw (.parameter "std" std "finite values >= 0" none)
  if !center.entries.all Float.isFinite then
    throw (.parameter "mean" mean "finite values" none)
  return .normal center spread

/-- The number of tries per row where none is given. -/
def defaultTries : Nat := 10000

/-- Uniform rows that a function accepts; nothing stands for what is no function. -/
def ofFilter (accepts : Option (Row Float → Call σ Value)) (given : Option Value) :
    Except Error (Initializer σ) :=
  let tries := given.getD (.int defaultTries)
  match accepts with
  | none => .error (.configuration .filterNotCallable)
  | some accepts =>
    match tries.asInt? with
    | some n =>
      if n ≤ 0 then .error (.parameter "max_tries" tries "a positive integer" none)
      else .ok (.filtered accepts n.toNat)
    | none => .error (.parameter "max_tries" tries "a positive integer" none)

end Initializer

/-- Where a run starts from: a box, how its population is made, and the number its random streams
depend on. -/
structure Opening (σ : Type) where
  bounds : Bounds Float
  nObj : Option Int
  popSize : Value
  seed : Value
  frontLimit : Value
  initializer : Option (Initializer σ)
  population : Option Value

namespace Opening

variable {σ P : Type}

/-- The run before its population is made; `fresh` is the seed where none is given. -/
def start (o : Opening σ) (fresh : Nat) : Except Error (Run Float P) := do
  if o.population.isSome && o.initializer.isSome then throw (.configuration .twoPopulations)
  let seed ← seedOf fresh o.seed
  return .start o.bounds (← Run.popSizeOf o.popSize) o.nObj o.frontLimit seed

def populate (o : Opening σ) : Search σ Float P Unit :=
  match o.population with
  | some pair => Initial.adoptPair pair
  | none => Initial.populate (o.initializer.getD .uniform)

end Opening

end BoxSearch
