import BoxSearch.Random.Draw

/-!
A source that hands out listed numbers.

The numbers come in order, again and again. Uniform and normal numbers are taken as they are, and an
index below `n` is the whole part of a number times `n`. With such a source it can be said exactly
which numbers an operator sees.
-/

namespace BoxSearch

/-- The numbers, and which of them comes next. -/
structure Listing where
  numbers : Array Float
  next : Nat

/-- A computation that draws from a list of numbers. -/
abbrev Listed := ExceptT Error (StateM Listing)

namespace Listed

/-- The next number; an empty list hands out zeros. -/
def number : Listed Float := do
  let ⟨numbers, i⟩ ← get
  set (⟨numbers, (i + 1) % numbers.size⟩ : Listing)
  return numbers.getD i 0.0

instance : RandomSource Listed where
  unit := number
  normal _ _ := number
  below n := do
    let x ← number
    return (x * n.toFloat).floor.toUInt64.toNat

/-- The result of a computation that starts at the first number. -/
def runOn {β : Type} (numbers : Array Float) (draw : Listed β) : Except Error β :=
  (draw.run ⟨numbers, 0⟩).1

end Listed

end BoxSearch
