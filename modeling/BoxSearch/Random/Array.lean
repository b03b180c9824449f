import BoxSearch.Random.Draw
import BoxSearch.Tensor.Broadcast

/-!
Arrays of random numbers, and draws asked for by loose values.

A draw may be asked for a whole array, and its parameters may be arrays themselves. The parameters
stretch to the shape that is asked for, or to their common shape if none is, and the numbers are
drawn in row order. All parameters are checked before the first draw.
-/

namespace BoxSearch.Draw

/-- A whole number; truth values count as one or zero. -/
private def whole : Value → Except Error Int
  | .int n => .ok n
  | .bool b => .ok (if b then 1 else 0)
  | _ => .error (.fault .type)

private def lengthOf (v : Value) : Except Error Nat := do
  let n ← whole v
  if n < 0 then throw (.fault .value) else return n.toNat

/-- The shape that a value asks for: a list of lengths, or a single length. -/
def shapeOf : Value → Except Error (Option (List Nat))
  | .absent => .ok none
  | .list items | .tuple items => (items.mapM lengthOf).map some
  | v => (lengthOf v).map fun n => some [n]

/-- A parameter of a draw: a number or an array of numbers. -/
private def parameter : Value → Except Error (Tensor Float)
  | .absent | .text _ | .record _ => .error (.fault .type)
  | v => v.toTensor

/-- Numbers of `[0, 1)` in the shape that is asked for; a single one if none is. -/
def unitArray (size : Value) : Draw (Tensor Float) := do
  let shape := (← MonadExcept.ofExcept (shapeOf size)).getD []
  return ⟨shape, ← times (Tensor.places shape) unit⟩

/-- Draws with two parameters each: from every pair of entries of two arrays stretched to the shape
that is asked for. -/
private def pairwise (draw : Float → Float → Draw Float) (a b : Tensor Float) (size : Value) :
    Draw (Tensor Float) := do
  let shape ← match ← MonadExcept.ofExcept (shapeOf size), Tensor.commonShape? a.shape b.shape with
    | some shape, _ => pure shape
    | none, some shape => pure shape
    | none, none => throw (.fault .value)
  let a ← MonadExcept.ofExcept (a.stretchTo shape)
  let b ← MonadExcept.ofExcept (b.stretchTo shape)
  let entries ← (List.range (Tensor.places shape)).foldlM (fun xs i => do
    return xs.push (← draw (a.entries.getD i 0.0) (b.entries.getD i 0.0))) #[]
  return ⟨shape, entries⟩

def uniformArray (low high size : Value) : Draw (Tensor Float) := do
  let a ← MonadExcept.ofExcept (parameter low)
  let b ← MonadExcept.ofExcept (parameter high)
  let inverted ← MonadExcept.ofExcept (Tensor.combine (fun x y => decide (y < x)) a b)
  if inverted.entries.contains true then
    throw (.misuse (.rangeInverted low.shown high.shown))
  let span ← MonadExcept.ofExcept (Tensor.combine (fun x y => y - x) a b)
  MonadExcept.ofExcept (checkSpan span.entries)
  pairwise between a b size

def normalArray (mean std size : Value) : Draw (Tensor Float) := do
  let spread ← MonadExcept.ofExcept (parameter std)
  if spread.entries.any (· < 0.0) then throw (.misuse (.negativeSpread std.shown))
  let center ← MonadExcept.ofExcept (parameter mean)
  MonadExcept.ofExcept (checkSpread spread.entries)
  pairwise RandomSource.normal center spread size

/-- An index below a number, which loses its fraction once it is known to be positive. -/
def indexBelow (n : Value) : Draw Nat :=
  match n with
  | .float x => do
    if x ≤ 0.0 then throw (.misuse (.emptyRange n.shown))
    let top ← MonadExcept.ofExcept (Value.truncate x)
    if top ≤ 0 then throw (.fault .value) else index top
  | n => do
    let top ← MonadExcept.ofExcept (whole n)
    if top ≤ 0 then throw (.misuse (.emptyRange n.shown)) else index top

/-- True with a probability. A number is drawn even if the probability is none. -/
def chanceOf (p : Value) : Draw Bool := do
  let u ← unit
  match p with
  | .int n => return 0 < n
  | .bool b => return b
  | .float x => return u < x
  | _ => throw (.fault .type)

/-- `distinct` for values that should be whole numbers. A pool that could be drawn from must not be
larger than a signed machine word can say. -/
def distinctOf (n k exclude : Value) : Draw (Array Nat) := do
  let n ← MonadExcept.ofExcept (whole n)
  let k ← MonadExcept.ofExcept (whole k)
  let hole ← match exclude with
    | .absent => pure none
    | v => some <$> MonadExcept.ofExcept (whole v)
  let pool := n - (if (gap? n hole).isSome then 1 else 0)
  if 0 ≤ k ∧ k ≤ pool ∧ 0x8000000000000000 ≤ pool then throw (.fault .overflow)
  distinct n k hole

/-- A random order along the first dimension of an array. One without entries is left alone. -/
def shuffledTensor {β : Type} (t : Tensor β) : Draw (Tensor β) := do
  match t.shape with
  | [] => throw (.fault .type)
  | count :: rest =>
    if t.entries.isEmpty then return t
    let parts ← shuffled (Tensor.cut count (Tensor.places rest) t.entries)
    return ⟨t.shape, parts.flatten⟩

/-- Nested lists as an array of values. Whole numbers beside a real one become real. -/
private def looseTensor (v : Value) : Except Error (Tensor Value) :=
  match v.shape? with
  | none => .error (.fault .value)
  | some shape =>
    let leaves := shape.foldl (fun vs _ => vs.flatMap fun v => v.parts?.getD []) [v]
    let isReal : Value → Bool
      | .float _ => true
      | _ => false
    let toReal : Value → Value
      | .int n => .float (Float.ofInt n)
      | v => v
    .ok ⟨shape, (if leaves.any isReal then leaves.map toReal else leaves).toArray⟩

/-- A random order of nested lists along the first dimension. -/
def shuffledArray (v : Value) : Draw Value := do
  let t ← shuffledTensor (← MonadExcept.ofExcept (looseTensor v))
  return .nested t.shape t.entries

def shuffledList : Value → Draw Value
  | .list items => return .list (← shuffled items.toArray).toList
  | _ => throw (.fault .type)

/-- A draw by its name, with its arguments. -/
def named (name : String) (args : List Value) : Draw Value := do
  let arg (i : Nat) : Value := args.getD i .absent
  if name == "random" then return .ofTensor (← unitArray (arg 0))
  else if name == "uniform" then return .ofTensor (← uniformArray (arg 0) (arg 1) (arg 2))
  else if name == "normal" then
    let mean := args.getD 0 (.float 0.0)
    let std := args.getD 1 (.float 1.0)
    return .ofTensor (← normalArray mean std (arg 2))
  else if name == "index" then return .int (← indexBelow (arg 0))
  else if name == "maybe" then return .bool (← chanceOf (arg 0))
  else if name == "distinct" then
    let picks ← distinctOf (arg 0) (arg 1) (arg 2)
    return .list (picks.toList.map fun i : Nat => .int i)
  else if name == "shuffle" then shuffledList (arg 0)
  else throw (.fault .attribute)

end BoxSearch.Draw
