import BoxSearch.Settings.Check

/-!
Settings of the genetic strategy.
-/

namespace BoxSearch.Genetic

/-- How two parents are crossed. -/
inductive Crossover where
  | simulatedBinary
  | blend
deriving Repr, BEq, DecidableEq

/-- How a child is changed. -/
inductive Mutation where
  | polynomial
  | gaussian
deriving Repr, BEq, DecidableEq

def crossovers : List (String × Crossover) := [("sbx", .simulatedBinary), ("blx", .blend)]

def mutations : List (String × Mutation) := [("pm", .polynomial), ("gaussian", .gaussian)]

def Crossover.name : Crossover → String
  | simulatedBinary => "sbx"
  | blend => "blx"

def Mutation.name : Mutation → String
  | polynomial => "pm"
  | gaussian => "gaussian"

/-- `cross` and `mutate` are probabilities per pair and per gene. `eta` and `alpha` shape the two
crossovers, `etaMutation` and `sigma` the two mutations. -/
structure Settings where
  popSize : Nat := 200
  cross : Float := 0.95
  mutate : Float := 0.05
  crossover : Crossover := .simulatedBinary
  eta : Float := 15.0
  alpha : Float := 0.5
  mutation : Mutation := .polynomial
  etaMutation : Float := 20.0
  sigma : Float := 0.1
deriving BEq

namespace Settings

/-- The names of the settings in their order. -/
def known : List String :=
  ["pop_size", "cross", "mutate", "crossover", "eta", "alpha", "mutation", "eta_m", "sigma"]

/-- Settings from a record of known names. -/
def read (record : Record) : Except Error Settings := do
  let given : BoxSearch.Settings.Given := ⟨"rga", record⟩
  let default : Settings := {}
  let popSize ← given.popSize default.popSize 2
  let cross ← given.probability "cross" default.cross
  let mutate ← given.probability "mutate" default.mutate
  let crossover ← given.choice "crossover" default.crossover crossovers
  let mutation ← given.choice "mutation" default.mutation mutations
  let eta ← given.number "eta" default.eta .fromZero
  let alpha ← given.number "alpha" default.alpha .fromZero
  let etaMutation ← given.number "eta_m" default.etaMutation .fromZero
  let sigma ← given.number "sigma" default.sigma .aboveZero
  return { popSize, cross, mutate, crossover, eta, alpha, mutation, etaMutation, sigma }

/-- The settings as a record, in their order. -/
def toRecord (s : Settings) : Record :=
  [("pop_size", .int s.popSize), ("cross", .float s.cross), ("mutate", .float s.mutate),
   ("crossover", .text s.crossover.name), ("eta", .float s.eta), ("alpha", .float s.alpha),
   ("mutation", .text s.mutation.name), ("eta_m", .float s.etaMutation), ("sigma", .float s.sigma)]

end Settings

end BoxSearch.Genetic
