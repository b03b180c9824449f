import BoxSearch.Settings.Check

/-!
Settings of the particle swarm.
-/

namespace BoxSearch.Swarm

/-- `inertia` keeps a part of the velocity, `c1` and `c2` weigh the pull of the particle's own best
and of the leader, and `vmaxFraction` of the box is the largest velocity. -/
structure Settings where
  popSize : Nat := 200
  inertia : Float := 0.5
  c1 : Float := 1.5
  c2 : Float := 1.5
  vmaxFraction : Float := 0.5
deriving BEq

namespace Settings

/-- The names of the settings in their order. -/
def known : List String := ["pop_size", "inertia", "c1", "c2", "vmax_fraction"]

/-- Settings from a record of known names. -/
def read (record : Record) : Except Error Settings := do
  let given : BoxSearch.Settings.Given := ⟨"pso", record⟩
  let default : Settings := {}
  let popSize ← given.popSize default.popSize 2
  let inertia ← given.number "inertia" default.inertia .fromZero
  let c1 ← given.number "c1" default.c1 .fromZero
  let c2 ← given.number "c2" default.c2 .fromZero
  let vmaxFraction ← given.number "vmax_fraction" default.vmaxFraction (.upTo 1.0)
  return { popSize, inertia, c1, c2, vmaxFraction }

/-- The settings as a record, in their order. -/
def toRecord (s : Settings) : Record :=
  [("pop_size", .int s.popSize), ("inertia", .float s.inertia), ("c1", .float s.c1),
   ("c2", .float s.c2), ("vmax_fraction", .float s.vmaxFraction)]

end Settings

end BoxSearch.Swarm
