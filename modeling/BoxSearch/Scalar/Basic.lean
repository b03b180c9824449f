import BoxSearch.Tensor.Basic

/-!
The numbers a search computes with.

Everything between the random draws and the reported results is written over a `Scalar`: an
ordered type with arithmetic, an infinity and the three functions the operators need. `Float` is
the instance that runs. Writing the search over the class keeps its order of operations explicit
and leaves room for exact numbers, in which distances and sums carry no rounding.

A number that differs from itself is "not a number". `larger`, `smaller` and `clamp` pass such
numbers on, and on equal operands return the second one, which tells the two zeros apart.
-/

namespace BoxSearch

/-- Ordered numbers with arithmetic, an infinity, and the functions the operators need. -/
class Scalar (α : Type) extends Add α, Sub α, Mul α, Div α, Neg α, BEq α, LE α, LT α where
  decLE : ∀ a b : α, Decidable (a ≤ b)
  decLT : ∀ a b : α, Decidable (a < b)
  /-- The number a random draw or a setting stands for. -/
  ofFloat : Float → α
  /-- The number a count or an index stands for. -/
  ofNat : Nat → α
  infinity : α
  power : α → α → α
  exp : α → α
  sqrt : α → α

instance : Scalar Float where
  decLE := inferInstance
  decLT := inferInstance
  ofFloat := id
  ofNat := Nat.toFloat
  infinity := 1.0 / 0.0
  power := Float.pow
  exp := Float.exp
  sqrt := Float.sqrt

namespace Scalar

variable {α : Type} [Scalar α]

instance (a b : α) : Decidable (a ≤ b) := decLE a b

instance (a b : α) : Decidable (a < b) := decLT a b

def zero : α := ofFloat 0.0

def one : α := ofFloat 1.0

/-- A number that differs from itself is not a number. -/
def isNaN (a : α) : Bool := !(a == a)

def isFinite (a : α) : Bool := decide (-(infinity : α) < a) && decide (a < infinity)

/-- The larger of two numbers, the second one if they are equal. -/
def larger (a b : α) : α := if isNaN a || decide (b < a) then a else b

/-- The smaller of two numbers, the second one if they are equal. -/
def smaller (a b : α) : α := if isNaN a || decide (a < b) then a else b

/-- The number moved into the interval from `low` to `high`. -/
def clamp (a low high : α) : α := smaller (larger a low) high

/-- Left-to-right sum of entries after `acc`. -/
def sumFrom (acc : α) (xs : List α) : α := xs.foldl (· + ·) acc

/-- Every eighth entry from the `lane`-th on, added up. -/
def laneSum (xs : Array α) (lane blocks : Nat) : α :=
  (List.range (blocks - 1)).foldl (fun acc b => acc + xs.getD (8 * (b + 1) + lane) zero)
    (xs.getD lane zero)

/-- A block of at most 128 entries: eight interleaved sums, added in pairs, and then the entries
that are left over. -/
def blockSum (xs : Array α) : α :=
  let blocks := xs.size / 8
  let lane (j : Nat) := laneSum xs j blocks
  sumFrom (((lane 0 + lane 1) + (lane 2 + lane 3)) + ((lane 4 + lane 5) + (lane 6 + lane 7)))
    (xs.extract (8 * blocks) xs.size).toList

/-- The sum of the entries, added in a fixed tree: short arrays from left to right, arrays of up to
128 entries in eight lanes, longer ones in two halves whose first length is a multiple of eight. -/
def pairwiseSum (xs : Array α) : α :=
  if xs.size < 8 then
    match xs.toList with
    | [] => zero
    | x :: rest => sumFrom x rest
  else if _h : xs.size ≤ 128 then blockSum xs
  else
    let half := xs.size / 2 / 8 * 8
    pairwiseSum (xs.extract 0 half) + pairwiseSum (xs.extract half xs.size)
termination_by xs.size
decreasing_by
  · simp only [Array.size_extract]; omega
  · simp only [Array.size_extract]; omega

def total (xs : Array α) : α := zero + pairwiseSum xs

def mean (xs : Array α) : α := total xs / ofNat xs.size

/-- The first index at which `xs` is smallest; an entry that is not a number counts as smaller than
all others. Nothing for an empty vector. -/
def argMin? (xs : Array α) : Option Nat :=
  (List.range xs.size).foldl (fun best i =>
    match best with
    | none => some i
    | some b =>
      let x := xs.getD i zero
      let least := xs.getD b zero
      if isNaN least then some b
      else if isNaN x || decide (x < least) then some i else some b) none

end Scalar

namespace Row

variable {α : Type} [Scalar α]

/-- The `j`-th entry of a vector, zero beyond its end. -/
def gene (x : Row α) (j : Nat) : α := x.getD j Scalar.zero

/-- The vector of `n` entries given by a rule. -/
def tabulate (n : Nat) (rule : Nat → α) : Row α := (Array.range n).map rule

/-- Two vectors have the same length and equal entries. -/
def same (x y : Row α) : Bool :=
  x.size == y.size && (List.range x.size).all fun j => gene x j == gene y j

end Row

namespace Rows

variable {α : Type} [Scalar α]

/-- The `i`-th vector of a batch, empty beyond its end. -/
def row (X : Rows α) (i : Nat) : Row α := X.getD i #[]

def column (X : Rows α) (j : Nat) : Array α := X.map fun x => Row.gene x j

/-- The mean vector. A single column is added up as one vector; of several columns the rows are
added one after another. -/
def meanRow (width : Nat) (X : Rows α) : Row α :=
  if width == 1 then #[Scalar.mean (column X 0)]
  else
    let sums := X.foldl (fun acc x => Row.tabulate width fun j => Row.gene acc j + Row.gene x j)
      (Row.tabulate width fun _ => Scalar.zero)
    sums.map (· / Scalar.ofNat X.size)

end Rows

end BoxSearch
