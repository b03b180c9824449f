import BoxSearch.Value.Basic

/-!
Equality of values.

Numbers and truth values are equal if they stand for the same number, exactly and not rounded; what
is not a number equals nothing. Lists and tuples are equal to their own kind, item by item, and
records name by name in any order. An object equals no other value.
-/

namespace BoxSearch.Value

def sameNumber (n : Int) (x : Float) : Bool :=
  match Decimal.Binary.ofFloat x with
  | .finite negative mantissa exponent =>
    let m : Int := if negative then -mantissa else mantissa
    if 0 ≤ exponent then n == m * (1 <<< exponent.toNat : Nat)
    else n * (1 <<< (-exponent).toNat : Nat) == m
  | _ => false

mutual

def same : Value → Value → Bool
  | absent, absent => true
  | bool a, bool b => a == b
  | bool a, int n => (if a then 1 else 0) == n
  | int n, bool a => (if a then 1 else 0) == n
  | bool a, float x => x == (if a then 1.0 else 0.0)
  | float x, bool a => x == (if a then 1.0 else 0.0)
  | int m, int n => m == n
  | int n, float x => sameNumber n x
  | float x, int n => sameNumber n x
  | float x, float y => x == y
  | text s, text t => s == t
  | list xs, list ys => sameAll xs ys
  | tuple xs, tuple ys => sameAll xs ys
  | record xs, record ys => xs.length == ys.length && sameFields xs ys
  | _, _ => false

def sameAll : List Value → List Value → Bool
  | [], [] => true
  | x :: xs, y :: ys => same x y && sameAll xs ys
  | _, _ => false

/-- Every field has an equal one of its name in the other record. -/
def sameFields : List (String × Value) → List (String × Value) → Bool
  | [], _ => true
  | (name, x) :: rest, ys =>
    (match ys.find? (·.1 == name) with
      | some (_, y) => same x y
      | none => false) && sameFields rest ys

end

end BoxSearch.Value
