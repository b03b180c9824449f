import BoxSearch.Decimal.Binary

/-!
The shortest decimal that reads back to a given floating point number.

A positive number `m * 2 ^ q` is the rounding of every real between the midpoints to its two
neighbours, the midpoints included when `m` is even. Of the grids `10 ^ e * ℕ` the coarsest one
with a point in that interval gives the fewest digits; of two such points the nearer one is taken.
-/

namespace BoxSearch.Decimal

/-- A positive decimal number `digits * 10 ^ exponent`. -/
structure Scientific where
  digits : Nat
  exponent : Int
deriving Repr, BEq, DecidableEq

/-- The point of the grid `10 ^ e * ℕ` that rounds to `m * 2 ^ q`, the nearer one if both
neighbours do, the even one of two equally near. All comparisons are between whole numbers: a grid
point `n` is compared as `n * grid` with quarters of the last binary place as `k * place`. -/
def gridPoint? (m : Nat) (q : Int) (e : Int) : Option Nat :=
  let place := Nat.pow 10 (-e).toNat <<< (q - 2).toNat
  let grid := Nat.pow 10 e.toNat <<< (2 - q).toNat
  let value := 4 * m * place
  let low := (4 * m - if nearerBelow m q then 1 else 2) * place
  let high := (4 * m + 2) * place
  let inside (n : Nat) : Bool :=
    if m % 2 == 0 then low ≤ n * grid && n * grid ≤ high else low < n * grid && n * grid < high
  let n := value / grid
  let below := n != 0 && inside n
  let above := inside (n + 1)
  let gapBelow := value - n * grid
  let gapAbove := (n + 1) * grid - value
  if below && above then
    if gapBelow < gapAbove || (gapBelow == gapAbove && n % 2 == 0) then some n else some (n + 1)
  else if below then some n
  else if above then some (n + 1)
  else none

/-- A power of ten above `m * 2 ^ q`, at most two steps too large. -/
def powerAbove (m : Nat) (q : Int) : Int :=
  ((m.log2 : Int) + q + 1) * 30103 / 100000 + 1

/-- The shortest decimal that rounds to `m * 2 ^ q`, for `m` positive. Seventeen digits always
suffice, so at most twenty grids are tried. -/
def shortest (m : Nat) (q : Int) : Scientific :=
  let top := powerAbove m q
  ((List.range 24).findSome? fun (k : Nat) =>
    (gridPoint? m q (top - k)).map fun n => ⟨n, top - k⟩).getD ⟨0, 0⟩

end BoxSearch.Decimal
