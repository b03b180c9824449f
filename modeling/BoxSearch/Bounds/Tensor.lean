import BoxSearch.Bounds.Basic
import BoxSearch.Tensor.Broadcast

/-!
Boxes read from values, and boxes applied to arrays of any shape.
-/

namespace BoxSearch.Bounds

/-- A box from a value that should be a list of low and high pairs. -/
def ofValue (v : Value) : Except Error (Bounds Float) :=
  match v.toTensor with
  | .error (.fault .overflow) => .error (.fault .overflow)
  | .error _ => .error (.bounds .notNumeric)
  | .ok t =>
    match t.shape, t.rows? with
    | [_, 2], some (_, rows) => ofRows? rows
    | _, _ => .error (.bounds (.shape t.dims))

/-- The rows of a box whose borders are given apart: vectors become the two columns. Borders of
any other shape would stand beside each other, which is no list of pairs. -/
private def pairRows (lower upper : Tensor Float) : Except Error (Rows Float) :=
  match lower.dims with
  | [_] => .ok (Array.zipWith (fun l u => #[l, u]) lower.entries upper.entries)
  | [_, 1] => .ok (Array.zipWith (fun l u => #[l, u]) lower.entries upper.entries)
  | count :: width :: rest => .error (.bounds (.shape (count :: 2 * width :: rest)))
  | [] => .error (.bounds (.shape []))

/-- A box from separate lower and upper borders. A single number is stretched to the number of
dimensions, which is taken from the other side if it is not given. -/
def ofArrays (xl xu nVar : Value) : Except Error (Bounds Float) := do
  let lower ← xl.toTensor
  let upper ← xu.toTensor
  let stretched ←
    if lower.rank == 0 || upper.rank == 0 then
      let count ← match nVar with
        | .absent => pure ((max lower.entries.size upper.entries.size : Nat) : Int)
        | .int n => pure n
        | .bool b => pure (if b then 1 else 0)
        | _ => throw (.fault .type)
      if count < 0 then throw (.fault .value)
      else
        let shape := [count.toNat]
        let lower ← lower.stretchTo shape
        let upper ← upper.stretchTo shape
        pure (lower, upper)
    else pure (lower, upper)
  let (lower, upper) := stretched
  if lower.shape != upper.shape then
    throw (.bounds (.shapesDiffer lower.dims upper.dims))
  ofRows? (← pairRows lower upper)

variable {α : Type} [Scalar α]

/-- An array moved into the box; it must stretch together with one vector of the box. -/
def clipTensor (b : Bounds α) (t : Tensor α) : Except Error (Tensor α) := do
  let raised ← Tensor.combine Scalar.larger t (.ofRow b.lower)
  Tensor.combine Scalar.smaller raised (.ofRow b.upper)

/-- All entries of an array lie in the box. -/
def holdsTensor (b : Bounds α) (t : Tensor α) : Except Error Bool := do
  let above ← Tensor.combine (fun x low => decide (low ≤ x)) t (.ofRow b.lower)
  let below ← Tensor.combine (fun x high => decide (x ≤ high)) t (.ofRow b.upper)
  return above.entries.all id && below.entries.all id

def shown (b : Bounds Float) : String :=
  "Bounds([" ++ ", ".intercalate (b.pairs.map fun (low, high) =>
    "(" ++ Decimal.text low ++ ", " ++ Decimal.text high ++ ")") ++ "])"

def toRecord (b : Bounds Float) : Record :=
  [("lower", .ofFloats b.lower), ("upper", .ofFloats b.upper),
   ("dim", .int b.dim), ("len", .int b.dim), ("span", .ofFloats b.span),
   ("pairs", .list (b.pairs.map fun (low, high) => .ofFloats #[low, high])),
   ("repr", .text b.shown)]

/-- Two boxes share every bit of their borders, so that the two zeros differ. -/
def sameBits (b c : Bounds Float) : Bool :=
  b.lower.map Float.toBits == c.lower.map Float.toBits &&
    b.upper.map Float.toBits == c.upper.map Float.toBits

end BoxSearch.Bounds
