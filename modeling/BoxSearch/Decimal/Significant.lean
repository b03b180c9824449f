import BoxSearch.Decimal.Shortest

/-!
A number rounded to a fixed count of significant decimal digits, ties to the even digit.
-/

namespace BoxSearch.Decimal

/-- The whole number nearest to `num / den`, the even one of two equally near. -/
def roundedQuotient (num den : Nat) : Nat :=
  let n := num / den
  let rest := 2 * (num % den)
  if rest < den || (rest == den && n % 2 == 0) then n else n + 1

/-- `m * 2 ^ q` in units of `10 ^ e`, rounded. -/
def inUnits (m : Nat) (q : Int) (e : Int) : Nat :=
  roundedQuotient ((m * Nat.pow 10 (-e).toNat) <<< q.toNat) (Nat.pow 10 e.toNat <<< (-q).toNat)

/-- `m * 2 ^ q` with `count` significant digits: the finest unit whose rounding has no more than
`count` digits, found by coming down from a unit that is too coarse. -/
def significant (count m : Nat) (q : Int) : Scientific :=
  let top := powerAbove m q - count
  let fitting := (List.range 6).filter fun (k : Nat) => inUnits m q (top + 2 - k) < Nat.pow 10 count
  let e := top + 2 - (fitting.getLastD 0 : Nat)
  ⟨inUnits m q e, e⟩

end BoxSearch.Decimal
