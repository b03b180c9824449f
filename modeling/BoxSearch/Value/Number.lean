import BoxSearch.Decimal.Read
import BoxSearch.Error.Basic

/-!
Reading numbers out of values.

A real number may be given as a number, a truth value or a text; a whole number likewise, where a
real number loses its fraction. Reading fails in one of three ways: the value is of a kind that
stands for no number, its text does not parse, or it is too large.
-/

namespace BoxSearch.Value

/-- A whole number as the nearest real one; too large a number has none. -/
def floatOfInt (n : Int) : Except Error Float :=
  let x := Float.ofInt n
  if x.isInf then .error (.fault .overflow) else .ok x

def toFloat : Value → Except Error Float
  | bool b => .ok (if b then 1.0 else 0.0)
  | int n => floatOfInt n
  | float x => .ok x
  | text s => match Decimal.readFloat? s with
    | some x => .ok x
    | none => .error (.fault .value)
  | _ => .error (.fault .type)

def truncate (x : Float) : Except Error Int :=
  match Decimal.Binary.ofFloat x with
  | .nan => .error (.fault .value)
  | .infinite _ => .error (.fault .overflow)
  | .finite negative mantissa exponent =>
    let n : Nat := mantissa <<< exponent.toNat >>> (-exponent).toNat
    .ok (if negative then -n else n)

def toInt : Value → Except Error Int
  | bool b => .ok (if b then 1 else 0)
  | int n => .ok n
  | float x => truncate x
  | text s => match Decimal.readInt? s with
    | some n => .ok n
    | none => .error (.fault .value)
  | _ => .error (.fault .type)

/-- The value is a whole number proper: not a truth value, a real number or a text. -/
def asInt? : Value → Option Int
  | int n => some n
  | _ => none

/-- The value as an entry of an array of real numbers, where nothing stands for a missing number. -/
def toEntry : Value → Except Error Float
  | absent => .ok (0.0 / 0.0)
  | v => v.toFloat

def toInt? (v : Value) : Except Error (Option Int) :=
  v.present?.mapM toInt

/-- The items of a list, a tuple or a text: what can be taken apart into parts. -/
def parts? : Value → Option (List Value)
  | list items => some items
  | tuple items => some items
  | text s => some (s.toList.map fun c => text (String.singleton c))
  | record fields => some (fields.map fun field => text field.1)
  | _ => Option.none

end BoxSearch.Value
