import BoxSearch.Settings.Check

/-!
Settings of the teaching strategy, which has nothing to set but the size of the class.
-/

namespace BoxSearch.Teaching

structure Settings where
  popSize : Nat := 200
deriving BEq

namespace Settings

def known : List String := ["pop_size"]

/-- Settings from a record of known names. -/
def read (record : Record) : Except Error Settings := do
  let given : BoxSearch.Settings.Given := ⟨"tlbo", record⟩
  let default : Settings := {}
  let popSize ← given.popSize default.popSize 2
  return { popSize }

def toRecord (s : Settings) : Record := [("pop_size", .int s.popSize)]

end Settings

end BoxSearch.Teaching
