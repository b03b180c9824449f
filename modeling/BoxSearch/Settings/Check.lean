import BoxSearch.Value.Number
import BoxSearch.Text.LowerCase

/-!
Reading settings out of a record of loose values.

A setting that is not given keeps its default. One that is given is read as what it should be: a
population size must be a whole number, a choice the name of an option in any case, and any other
setting a finite number within its range, for which text will do. The first setting that fails is
reported; a failure names the value as it was given when it is no number at all, and the number
read from it when it is out of range.
-/

namespace BoxSearch.Settings

/-- Settings as they were given, and whose they are. -/
structure Given where
  owner : String
  record : Record

/-- The range of a number. -/
structure Range where
  /-- Zero and less are excluded. -/
  positive : Bool
  /-- Less than zero is excluded. -/
  nonNegative : Bool
  atMost : Option Float

def Range.fromZero : Range := ⟨false, true, none⟩

def Range.aboveZero : Range := ⟨true, false, none⟩

def Range.upTo (limit : Float) : Range := ⟨true, false, some limit⟩

namespace Given

def reject {β : Type} (g : Given) (key : String) (value : Value) (expected : String) :
    Except Error β :=
  .error (.parameter key value expected (some g.owner))

/-- A finite number. Too large a whole number fails before it can be judged. -/
def finite (g : Given) (key : String) (raw : Value) : Except Error Float :=
  match raw.toFloat with
  | .error (.fault .overflow) => .error (.fault .overflow)
  | .error _ => g.reject key raw "a finite number"
  | .ok x =>
    match raw with
    | .bool _ => g.reject key raw "a finite number"
    | _ => if x.isFinite then .ok x else g.reject key raw "a finite number"

def number (g : Given) (key : String) (default : Float) (range : Range) : Except Error Float :=
  match g.record.get? key with
  | none => .ok default
  | some raw => do
    let x ← g.finite key raw
    if range.positive && x ≤ 0.0 then g.reject key (.float x) "a finite number > 0"
    else if range.nonNegative && x < 0.0 then g.reject key (.float x) "a finite number >= 0"
    else match range.atMost with
      | some limit =>
        if limit < x then g.reject key (.float x) ("a finite number <= " ++ Decimal.text limit)
        else return x
      | none => return x

def probability (g : Given) (key : String) (default : Float) : Except Error Float :=
  match g.record.get? key with
  | none => .ok default
  | some raw => do
    let x ← g.finite key raw
    if 0.0 ≤ x && x ≤ 1.0 then return x
    else g.reject key (.float x) "a probability in [0, 1]"

/-- A population size of at least `minimum`, and of two in any case. -/
def popSize (g : Given) (default minimum : Nat) : Except Error Nat :=
  match g.record.get? "pop_size" with
  | none => .ok default
  | some raw =>
    let least := max 2 minimum
    match raw.asInt? with
    | some n =>
      if n < least then g.reject "pop_size" raw ("an integer >= " ++ toString least)
      else .ok n.toNat
    | none => g.reject "pop_size" raw ("an integer >= " ++ toString least)

def choice {β : Type} (g : Given) (key : String) (default : β) (options : List (String × β)) :
    Except Error β :=
  match g.record.get? key with
  | none => .ok default
  | some raw =>
    let chosen : Option β := match raw with
      | .text s => (List.find? (fun option => option.1 == Text.lower s) options).map Prod.snd
      | _ => none
    match chosen with
    | some option => .ok option
    | none => g.reject key raw ("one of " ++ ", ".intercalate (options.map Prod.fst))

end Given

/-- Checks that a record holds known settings only; the first unknown one in the order of names
is reported. -/
def checkKnown (owner : String) (known : List String) (record : Record) : Except Error Unit :=
  let unknown := (record.map (·.1)).filter fun name => !known.contains name
  match unknown.mergeSort (· ≤ ·) with
  | [] => .ok ()
  | name :: _ =>
    .error (.parameter name ((record.get? name).getD .absent)
      ("one of the known settings (" ++ ", ".intercalate (known.mergeSort (· ≤ ·)) ++ ")")
      (some owner))

end BoxSearch.Settings
