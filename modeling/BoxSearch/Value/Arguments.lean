import BoxSearch.Value.Number

/-!
Arguments given by place and by name.

A list of parameters takes the arguments given by place in order and the others by name. Too many,
an unknown name, a parameter given twice and a missing one are faults.
-/

namespace BoxSearch.Arguments

/-- The argument of every parameter, if it was given. The first `required` ones must be. -/
def bind {β : Type} (parameters : List String) (required : Nat) (args : List β)
    (named : List (String × β)) : Except Error (List (Option β)) :=
  let byPlace := parameters.take args.length
  let bound := parameters.zipIdx.map fun (name, i) =>
    match args[i]? with
    | some v => some v
    | none => (named.find? (·.1 == name)).map (·.2)
  if parameters.length < args.length then .error (.fault .type)
  else if named.any fun (name, _) => !parameters.contains name || byPlace.contains name then
    .error (.fault .type)
  else if (bound.take required).any Option.isNone then .error (.fault .type)
  else .ok bound

end BoxSearch.Arguments
