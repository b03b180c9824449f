import BoxSearch.Text.Quoted
import BoxSearch.Decimal.Text

/-!
Values as callers hand them in and as objectives return them.

Settings, fitness values and payloads arrive without a promised type: a population size may come as
text, a fitness as a nested list. `Value` is that common form; the rest of the library reads
typed data out of it. `Value.shown` is how a value appears inside a message.
-/

namespace BoxSearch

/-- A value of one of the kinds that settings, fitness values and payloads come in. An `object` is
anything else: only the name of its type and the text it shows are known. -/
inductive Value where
  | absent
  | bool (b : Bool)
  | int (n : Int)
  | float (x : Float)
  | text (s : String)
  | list (items : List Value)
  | tuple (items : List Value)
  | record (fields : List (String × Value))
  | object (type : String) (shows : String) (callable : Bool)
deriving Inhabited

namespace Value

def typeName : Value → String
  | absent => "NoneType"
  | bool _ => "bool"
  | int _ => "int"
  | float _ => "float"
  | text _ => "str"
  | list _ => "list"
  | tuple _ => "tuple"
  | record _ => "dict"
  | object type _ _ => type

mutual

/-- The value as it is shown inside a message: texts are quoted, numbers in their shortest form,
and a tuple of one keeps its comma. -/
def shown : Value → String
  | absent => "None"
  | bool b => if b then "True" else "False"
  | int n => toString n
  | float x => Decimal.text x
  | text s => Text.quoted s
  | list items => "[" ++ ", ".intercalate (shownAll items) ++ "]"
  | tuple [item] => "(" ++ item.shown ++ ",)"
  | tuple items => "(" ++ ", ".intercalate (shownAll items) ++ ")"
  | record fields => "\x7b" ++ ", ".intercalate (shownFields fields) ++ "\x7d"
  | object _ shows _ => shows

def shownAll : List Value → List String
  | [] => []
  | v :: rest => v.shown :: shownAll rest

/-- The fields of a record, each as quoted name and value. -/
def shownFields : List (String × Value) → List String
  | [] => []
  | (name, v) :: rest => (Text.quoted name ++ ": " ++ v.shown) :: shownFields rest

end

/-- The value inside running text: a text stands for itself, all else as it is shown. -/
def plain : Value → String
  | text s => s
  | v => v.shown

/-- Values that count as true in a condition: all but nothing, false, zero and the empty ones. -/
def truthy : Value → Bool
  | absent => false
  | bool b => b
  | int n => n != 0
  | float x => !(x == 0.0)
  | text s => !s.isEmpty
  | list items => !items.isEmpty
  | tuple items => !items.isEmpty
  | record fields => !fields.isEmpty
  | object .. => true

/-- A function, or an object that can be called. -/
def isCallable : Value → Bool
  | object _ _ callable => callable
  | _ => false

def present? : Value → Option Value
  | absent => none
  | v => some v

def ofFloats (xs : Array Float) : Value :=
  list (xs.toList.map float)

end Value

/-- A collection of named values in the order in which the names were first given. -/
abbrev Record := List (String × Value)

namespace Record

def get? (r : Record) (name : String) : Option Value :=
  (List.find? (·.1 == name) r).map (·.2)

/-- The value under a name; a missing one is absent. -/
def get (r : Record) (name : String) : Value :=
  (r.get? name).getD .absent

/-- Sets the value under a name; a new name goes to the end. -/
def put (r : Record) (name : String) (v : Value) : Record :=
  if r.any (·.1 == name) then r.map fun field => if field.1 == name then (name, v) else field
  else r ++ [(name, v)]

/-- The fields of `r` with those of `overrides` laid over them. -/
def overlay (r overrides : Record) : Record :=
  overrides.foldl (fun r (name, v) => r.put name v) r

end Record

end BoxSearch
