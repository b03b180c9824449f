import BoxSearch.Decimal.Significant

/-!
How numbers are written.

A number is written positionally while its decimal exponent is small, and with an exponent of at
least two digits otherwise. `Style` holds the decisions; `plain` is the style of values, `general`
the style of progress lines.
-/

namespace BoxSearch.Decimal

/-- Where positional notation ends, and whether a whole number keeps its `.0`. -/
structure Style where
  leastExponent : Int
  exponentLimit : Int
  keepsPoint : Bool
deriving Repr

/-- Values: positional from `0.0001` up to `10 ^ 16`, and a point is always shown. -/
def plain : Style := ⟨-4, 16, true⟩

/-- Progress lines: positional from `0.0001` up to `10 ^ 6`, without a needless point. -/
def general : Style := ⟨-4, 6, false⟩

/-- The digits of a whole number without the zeros at its end. -/
def trimZeros (digits : List Char) : List Char :=
  (digits.reverse.dropWhile (· == '0')).reverse

private def exponentText (e : Int) : String :=
  let digits := toString e.natAbs
  "e" ++ (if e < 0 then "-" else "+") ++ (if digits.length < 2 then "0" else "") ++ digits

/-- A positive decimal number in a style; zeros at the end of its digits are not shown. -/
def Style.render (style : Style) (x : Scientific) : String :=
  let all := (toString x.digits).toList
  let digits := trimZeros all
  let exponent := x.exponent + all.length - 1
  if style.leastExponent ≤ exponent && exponent < style.exponentLimit then
    if exponent < 0 then
      "0." ++ String.ofList (List.replicate (-exponent - 1).toNat '0' ++ digits)
    else
      let count := exponent.toNat + 1
      let whole := digits.take count ++ List.replicate (count - digits.length) '0'
      let rest := digits.drop count
      if rest.isEmpty then String.ofList whole ++ (if style.keepsPoint then ".0" else "")
      else String.ofList whole ++ "." ++ String.ofList rest
  else
    let rest := digits.drop 1
    String.ofList (digits.take 1) ++ (if rest.isEmpty then "" else "." ++ String.ofList rest)
      ++ exponentText exponent

/-- A number in a style, its digits chosen by `choose` from mantissa and exponent. -/
def Style.write (style : Style) (choose : Nat → Int → Scientific) (x : Float) : String :=
  match Binary.ofFloat x with
  | .nan => "nan"
  | .infinite negative => if negative then "-inf" else "inf"
  | .finite negative mantissa exponent =>
    (if negative then "-" else "") ++
      if mantissa == 0 then (if style.keepsPoint then "0.0" else "0")
      else style.render (choose mantissa exponent)

/-- The shortest text that reads back to the number. -/
def text (x : Float) : String :=
  plain.write shortest x

/-- The number with six significant digits. -/
def brief (x : Float) : String :=
  general.write (significant 6) x

/-- A whole number right-aligned in `width` columns. -/
def padded (width : Nat) (n : Int) : String :=
  let s := toString n
  String.ofList (List.replicate (width - s.length) ' ') ++ s

end BoxSearch.Decimal
