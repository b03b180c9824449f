/-!
The exact value of a floating point number: a sign, a whole mantissa and a power of two.
-/

namespace BoxSearch.Decimal

/-- What the 64 bits of a number stand for. A finite number is `± mantissa * 2 ^ exponent`. -/
inductive Binary where
  | nan
  | infinite (negative : Bool)
  | finite (negative : Bool) (mantissa : Nat) (exponent : Int)
deriving Repr, BEq, DecidableEq

/-- The reading of the bits of a number: one sign bit, eleven exponent bits, 52 fraction bits. -/
def Binary.ofBits (bits : Nat) : Binary :=
  let negative := bits >>> 63 % 2 == 1
  let field : Nat := bits >>> 52 % 2048
  let fraction : Nat := bits % (1 <<< 52)
  if field == 2047 then if fraction == 0 then .infinite negative else .nan
  else if field == 0 then .finite negative fraction (-1074)
  else .finite negative (fraction + 1 <<< 52) ((field : Int) - 1075)

def Binary.ofFloat (x : Float) : Binary :=
  .ofBits x.toBits.toNat

/-- The number below `mantissa * 2 ^ exponent` is nearer than the one above: this happens at the
powers of two, save the smallest normal one. -/
def nearerBelow (mantissa : Nat) (exponent : Int) : Bool :=
  mantissa == 1 <<< 52 && exponent != -1074

end BoxSearch.Decimal
