import BoxSearch.Text.Blank

/-!
Reading numbers from texts.

Blanks may surround a number and single underscores may stand between two digits. A real number is
a sign, then `inf`, `infinity` or `nan` in any case, or digits with an optional point and an
optional exponent. Digits of every script count.
-/

namespace BoxSearch.Decimal

open BoxSearch.Text

/-- Digits of any script as the ASCII digit of the same value; other characters stay. -/
def asciiDigits (cs : List Char) : List Char :=
  cs.map fun c => match digitValue? c with
    | some d => Char.ofNat (48 + d)
    | none => c

/-- The characters without the underscores, provided each stands between two digits. -/
def dropUnderscores? : (afterDigit : Bool) → List Char → Option (List Char)
  | _, [] => some []
  | afterDigit, '_' :: rest =>
    match rest with
    | d :: _ => if afterDigit && d.isDigit then dropUnderscores? false rest else none
    | [] => none
  | _, c :: rest => (dropUnderscores? c.isDigit rest).map (c :: ·)

/-- A sign, `true` for minus, and what follows it. -/
def splitSign : List Char → Bool × List Char
  | '-' :: rest => (true, rest)
  | '+' :: rest => (false, rest)
  | cs => (false, cs)

/-- The value of a row of decimal digits. -/
def digitsValue (cs : List Char) : Nat :=
  cs.foldl (fun n c => n * 10 + (c.toNat - 48)) 0

private def readExponent? : List Char → Option Int
  | [] => some 0
  | 'e' :: rest =>
    let (negative, digits) := splitSign rest
    if digits.isEmpty || !digits.all Char.isDigit then none
    else some (if negative then -(digitsValue digits : Int) else digitsValue digits)
  | _ => none

/-- The nearest number to `digits * 10 ^ exponent`. Exponents that leave the range of doubles on
either side are settled without computing the power. -/
def nearest (digits : Nat) (exponent : Int) : Float :=
  if digits == 0 then 0.0
  else
    let size := exponent + (toString digits).length
    if 400 < size then 1.0 / 0.0
    else if size < -400 then 0.0
    else Float.ofScientific digits (exponent < 0) exponent.natAbs

private def readMagnitude? (cs : List Char) : Option Float :=
  let word := String.ofList cs
  if word == "inf" || word == "infinity" then some (1.0 / 0.0)
  else if word == "nan" then some (0.0 / 0.0)
  else
    let whole := cs.takeWhile Char.isDigit
    let afterWhole := cs.dropWhile Char.isDigit
    let (fraction, tail) := match afterWhole with
      | '.' :: rest => (rest.takeWhile Char.isDigit, rest.dropWhile Char.isDigit)
      | rest => ([], rest)
    if whole.isEmpty && fraction.isEmpty then none
    else (readExponent? tail).map fun e => nearest (digitsValue (whole ++ fraction)) (e - fraction.length)

/-- The characters of a number text: trimmed, in ASCII digits, in lower case. -/
private def normalise (s : String) : List Char :=
  (asciiDigits (trimBlanks s.toList)).map Char.toLower

def readFloat? (s : String) : Option Float := do
  let cs ← dropUnderscores? false (normalise s)
  let (negative, rest) := splitSign cs
  let x ← readMagnitude? rest
  return if negative then -x else x

def readInt? (s : String) : Option Int := do
  let (negative, rest) := splitSign (normalise s)
  let digits ← dropUnderscores? false rest
  if digits.isEmpty || !digits.all Char.isDigit then none
  else return if negative then -(digitsValue digits : Int) else digitsValue digits

end BoxSearch.Decimal
