/-!
The logarithm of one plus a number, without the loss that forming the sum would bring.

`1 + x` is split into a power of two and a part `1 + f` near one; the rounding lost in the sum
comes back as a correction term. With `s = f / (2 + f)` the logarithm of the part is an odd series
in `s`, of which a polynomial of degree fourteen is used.
-/

namespace BoxSearch.Random

private def ln2High : Float := Float.ofBits 0x3fe62e42fee00000
private def ln2Low : Float := Float.ofBits 0x3dea39ef35793c76

/-- The tail of the series: `z` is the square of `s`. -/
private def series (z : Float) : Float :=
  let c1 := Float.ofBits 0x3fe5555555555593
  let c2 := Float.ofBits 0x3fd999999997fa04
  let c3 := Float.ofBits 0x3fd2492494229359
  let c4 := Float.ofBits 0x3fcc71c51d8e78af
  let c5 := Float.ofBits 0x3fc7466496cb03de
  let c6 := Float.ofBits 0x3fc39a09d078c69f
  let c7 := Float.ofBits 0x3fc2f112df3e5244
  let z2 := z * z
  let z4 := z2 * z2
  let z6 := z4 * z2
  z * c1 + z2 * (c2 + z * c3) + z4 * (c4 + z * c5) + z6 * (c6 + z * c7)

/-- A number `2 ^ power * (1 + part)`, with what rounding took from it. -/
private structure Split where
  power : Float
  part : Float
  correction : Float
  /-- The part is below `2 ^ -20`. -/
  tiny : Bool

/-- Splits `1 + x` for `-1 < x ≤ -0.2929`. The mantissa is brought between `√½` and `√2`. -/
private def splitSum (x : Float) : Split :=
  let u := 1.0 + x
  let bits := u.toBits
  let power : Int := ((bits >>> 52).toNat : Int) - 1023
  let correction := (if 0 < power then 1.0 - (u - x) else x - (u - 1.0)) / u
  let fraction := bits &&& 0x000fffffffffffff
  let high := fraction >>> 32
  if high < 0x6a09e then
    ⟨Float.ofInt power, Float.ofBits (fraction ||| 0x3ff0000000000000) - 1.0, correction, high == 0⟩
  else
    ⟨Float.ofInt (power + 1), Float.ofBits (fraction ||| 0x3fe0000000000000) - 1.0, correction,
      (0x00100000 - high) >>> 2 == 0⟩

/-- The logarithm from a split; a zero power adds nothing. -/
private def logOfSplit (s : Split) : Float :=
  let f := s.part
  let half := 0.5 * f * f
  let base := s.power * ln2High
  let rest := s.power * ln2Low + s.correction
  if s.tiny then
    if f == 0.0 then if s.power == 0.0 then 0.0 else base + (s.correction + s.power * ln2Low)
    else
      let r := half * (1.0 - 0.66666666666666666 * f)
      if s.power == 0.0 then f - r else base - ((r - rest) - f)
  else
    let t := f / (2.0 + f)
    let r := series (t * t)
    if s.power == 0.0 then f - (half - t * (half + r))
    else base - ((half - (t * (half + r) + rest)) - f)

/-- The logarithm of `1 + x`, for `-1 ≤ x ≤ 0`. -/
def logOnePlus (x : Float) : Float :=
  let size := x.abs
  if 1.0 ≤ size then if x == -1.0 then -1.0 / 0.0 else 0.0 / 0.0
  else if size < Float.ofBits 0x3c90000000000000 then x
  else if size < Float.ofBits 0x3e20000000000000 then x - x * x * 0.5
  else if x.toBits >>> 32 ≤ 0xbfd2bec3 then logOfSplit ⟨0.0, x, 0.0, false⟩
  else logOfSplit (splitSum x)

end BoxSearch.Random
