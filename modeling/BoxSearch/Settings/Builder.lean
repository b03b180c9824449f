import BoxSearch.Settings.Family

/-!
Settings collected one call at a time.

A builder has one method per setting; those of the genetic strategy that choose an operator also
take the numbers that shape it. Nothing is checked until the settings are fixed.
-/

namespace BoxSearch.Settings

/-- Settings collected so far. -/
structure Builder where
  family : Family
  record : Record

namespace Builder

def put (b : Builder) (key : String) (v : Value) : Builder :=
  { b with record := b.record.put key v }

/-- The single argument called `parameter`, given by place or by name. -/
private def single (parameter : String) (args : List Value) (named : Record) :
    Except Error Value :=
  match args, named with
  | [v], [] => .ok v
  | [], [(key, v)] => if key == parameter then .ok v else .error (.fault .type)
  | _, _ => .error (.fault .type)

/-- Chooses an operator, with numbers that shape it: `extras` maps the names of the arguments to
the settings they fill. An absent number changes nothing. -/
private def chooseOperator (b : Builder) (key : String) (extras : List (String × String))
    (args : List Value) (named : Record) : Except Error Builder := do
  let (shaping, rest) := named.partition fun field => extras.any (·.1 == field.1)
  let method ← single "method" args rest
  return extras.foldl (fun b (argument, setting) =>
    match Record.get? shaping argument with
    | none | some .absent => b
    | some v => b.put setting v) (b.put key method)

/-- The settings that have a method of their own. -/
def methods : Family → List String
  | .genetic => ["pop_size", "cross", "mutate"]
  | f => f.known

def call (b : Builder) (method : String) (args : List Value) (named : Record) :
    Except Error Builder :=
  if (methods b.family).contains method then
    (single "value" args named).map (b.put method)
  else if b.family == .genetic && method == "crossover" then
    b.chooseOperator "crossover" [("eta", "eta"), ("alpha", "alpha")] args named
  else if b.family == .genetic && method == "mutation" then
    b.chooseOperator "mutation" [("eta", "eta_m"), ("sigma", "sigma")] args named
  else .error (.fault .attribute)

def fixed (b : Builder) : Except Error Settings := b.family.ofArguments b.record

end Builder

end BoxSearch.Settings
