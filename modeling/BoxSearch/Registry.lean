import BoxSearch.Text.LowerCase
import BoxSearch.Error.Basic

/-!
Items under names.

A name counts the same in any case. Items keep the order in which their names were first given;
giving a name again is a failure unless overriding is asked for.
-/

namespace BoxSearch

/-- Items under lower case names, in the order of registration. -/
structure Registry (β : Type) where
  name : String
  items : List (String × β)

namespace Registry

variable {β : Type}

def empty (name : String) : Registry β := ⟨name, []⟩

def keys (r : Registry β) : List String := r.items.map (·.1)

def size (r : Registry β) : Nat := r.items.length

private def at? (r : Registry β) (key : String) : Option β :=
  (r.items.find? (·.1 == key)).map (·.2)

def contains (r : Registry β) (key : String) : Bool := (r.at? (Text.lower key)).isSome

def register (r : Registry β) (key : String) (item : β) (override : Bool) :
    Except Error (Registry β) :=
  let key := Text.lower key
  if (r.at? key).isSome then
    if override then
      .ok { r with items := r.items.map fun entry => if entry.1 == key then (key, item) else entry }
    else .error (.misuse (.duplicateKey key r.name))
  else .ok { r with items := r.items ++ [(key, item)] }

/-- The item under a name, the default if there is none. -/
def get (r : Registry β) (key : String) (default : Option β) : Except Error β :=
  let key := Text.lower key
  match r.at? key, default with
  | some item, _ => .ok item
  | none, some item => .ok item
  | none, none => .error (.misuse (.unknownKey key r.name))

end Registry

end BoxSearch
