import BoxSearch.Settings.Check

/-!
Settings of the firefly strategy.
-/

namespace BoxSearch.Firefly

/-- `alpha` scales the random step as a part of the box and shrinks by `alphaDecay` every
generation. `beta0` is the attraction at distance zero and `gamma` how fast light is absorbed. -/
structure Settings where
  popSize : Nat := 80
  alpha : Float := 1.0
  beta0 : Float := 1.0
  gamma : Float := 0.01
  alphaDecay : Float := 0.95
deriving BEq

namespace Settings

/-- The names of the settings in their order. -/
def known : List String := ["pop_size", "alpha", "beta0", "gamma", "alpha_decay"]

/-- Settings from a record of known names. -/
def read (record : Record) : Except Error Settings := do
  let given : BoxSearch.Settings.Given := ⟨"fa", record⟩
  let default : Settings := {}
  let popSize ← given.popSize default.popSize 2
  let alpha ← given.number "alpha" default.alpha .fromZero
  let beta0 ← given.number "beta0" default.beta0 .fromZero
  let gamma ← given.number "gamma" default.gamma .fromZero
  let alphaDecay ← given.number "alpha_decay" default.alphaDecay (.upTo 1.0)
  return { popSize, alpha, beta0, gamma, alphaDecay }

/-- The settings as a record, in their order. -/
def toRecord (s : Settings) : Record :=
  [("pop_size", .int s.popSize), ("alpha", .float s.alpha), ("beta0", .float s.beta0),
   ("gamma", .float s.gamma), ("alpha_decay", .float s.alphaDecay)]

end Settings

end BoxSearch.Firefly
