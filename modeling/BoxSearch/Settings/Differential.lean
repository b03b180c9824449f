import BoxSearch.Settings.Check

/-!
Settings of differential evolution.
-/

namespace BoxSearch.Differential

/-- How a mutant is formed from donors `v` and the best point:

* `rand1`: `v0 + f (v1 - v2)`
* `best1`: `best + f (v0 - v1)`
* `currentToBest1`: `x + f (best - x + v0 - v1)`
* `best2`: `best + f (v0 + v1 - v2 - v3)`
* `rand2`: `v4 + f (v0 + v1 - v2 - v3)` -/
inductive Mutant where
  | rand1
  | best1
  | currentToBest1
  | best2
  | rand2
deriving Repr, BEq, DecidableEq

/-- Which genes come from the mutant: each one by itself, or one circular run of genes. -/
inductive Crossover where
  | binomial
  | exponential
deriving Repr, BEq, DecidableEq

/-- The number of donors drawn for a mutant. -/
def Mutant.donors : Mutant → Nat
  | rand1 => 3
  | best1 => 2
  | currentToBest1 => 2
  | best2 => 4
  | rand2 => 5

def Mutant.name : Mutant → String
  | rand1 => "rand1"
  | best1 => "best1"
  | currentToBest1 => "current_to_best1"
  | best2 => "best2"
  | rand2 => "rand2"

def Crossover.name : Crossover → String
  | binomial => "bin"
  | exponential => "exp"

def mutants : List (String × Mutant) :=
  [Mutant.rand1, .best1, .currentToBest1, .best2, .rand2].map fun m => (m.name, m)

def crossovers : List (String × Crossover) :=
  [Crossover.binomial, .exponential].map fun c => (c.name, c)

/-- `f` scales the differences of donors, `cross` is the rate at which genes come from the
mutant. -/
structure Settings where
  popSize : Nat := 200
  f : Float := 0.6
  cross : Float := 0.9
  mutant : Mutant := .rand1
  crossover : Crossover := .binomial
deriving BEq

namespace Settings

/-- The names of the settings in their order. -/
def known : List String := ["pop_size", "f", "cross", "strategy", "crossover"]

/-- Settings from a record of known names. The donors of the chosen mutant, and the individual
itself, must fit into the population. -/
def read (record : Record) : Except Error Settings := do
  let given : BoxSearch.Settings.Given := ⟨"de", record⟩
  let default : Settings := {}
  let mutant ← given.choice "strategy" default.mutant mutants
  let crossover ← given.choice "crossover" default.crossover crossovers
  let popSize ← given.popSize default.popSize (mutant.donors + 1)
  let f ← given.number "f" default.f (.upTo 2.0)
  let cross ← given.probability "cross" default.cross
  return { popSize, f, cross, mutant, crossover }

/-- The settings as a record, in their order. -/
def toRecord (s : Settings) : Record :=
  [("pop_size", .int s.popSize), ("f", .float s.f), ("cross", .float s.cross),
   ("strategy", .text s.mutant.name), ("crossover", .text s.crossover.name)]

end Settings

end BoxSearch.Differential
