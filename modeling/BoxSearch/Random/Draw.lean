import BoxSearch.Random.Normal
import BoxSearch.Error.Basic

/-!
Draws from one stream, with their rules.

A `Draw` is a computation that takes numbers from one stream and may fail; what was taken before a
failure stays taken. `RandomSource` is the part of it that variation operators and archives use, so
that they work with any source of numbers.
-/

namespace BoxSearch

/-- A computation that draws from one stream. -/
abbrev Draw := ExceptT Error (StateM Random.Generator)

/-- Sources of uniform numbers of `[0, 1)`, normal numbers, and indices below a positive bound. -/
class RandomSource (m : Type → Type) where
  unit : m Float
  normal : (mean std : Float) → m Float
  below : Nat → m Nat

namespace Draw

open BoxSearch.Random

def lift {β : Type} (draw : Generator → β × Generator) : Draw β :=
  ExceptT.lift (fun g => draw g : StateM Generator β)

instance : RandomSource Draw where
  unit := lift Generator.unit
  normal mean std := return mean + std * (← lift gauss)
  below n := lift (upTo (n - 1))

def unit : Draw Float := lift Generator.unit

def between (low high : Float) : Draw Float :=
  return low + (high - low) * (← unit)

/-- The sign bit is set, also that of a zero; what is not a number has no sign. -/
def signed (x : Float) : Bool :=
  !x.isNaN && x.toBits >>> 63 == 1

/-- Lengths of intervals must be finite, and none may carry a sign. -/
def checkSpan (span : Array Float) : Except Error Unit :=
  if !span.all Float.isFinite then .error (.fault .overflow)
  else if span.any signed then .error (.fault .value)
  else .ok ()

def checkSpread (std : Array Float) : Except Error Unit :=
  if std.any signed then .error (.fault .value) else .ok ()

def index (n : Int) : Draw Nat :=
  if n ≤ 0 then throw (.misuse (.emptyRange (toString n)))
  else if 0x8000000000000000 < n then throw (.fault .value)
  else lift (upTo (n.toNat - 1))

def chance (p : Float) : Draw Bool :=
  return (← unit) < p

/-- The indices that a selection from a pool with a gap at `exclude` stands for: those at or above
the gap move up by one. -/
def stepOver (exclude : Nat) (picks : Array Nat) : Array Nat :=
  picks.map fun pick => if exclude ≤ pick then pick + 1 else pick

/-- The index that is left out, if it is one of `[0, n)`. -/
def gap? (n : Int) (exclude : Option Int) : Option Nat :=
  match exclude with
  | some e => if 0 ≤ e ∧ e < n then some e.toNat else none
  | none => none

/-- `k` distinct indices of `[0, n)`, leaving out `exclude`. -/
def distinct (n k : Int) (exclude : Option Int) : Draw (Array Nat) :=
  let hole := gap? n exclude
  let pool := n - (if hole.isSome then 1 else 0)
  if pool < k then throw (.misuse (.poolTooSmall k pool))
  else if k < 0 then throw (.fault .value)
  else do
    let picks ← lift (select pool.toNat k.toNat)
    return match hole with
      | some e => stepOver e picks
      | none => picks

def shuffled {β : Type} (xs : Array β) : Draw (Array β) :=
  lift (shuffle xs)

def times {m : Type → Type} {β : Type} [Monad m] (n : Nat) (draw : m β) : m (Array β) :=
  (List.range n).foldlM (fun xs _ => return xs.push (← draw)) #[]

end Draw

end BoxSearch
