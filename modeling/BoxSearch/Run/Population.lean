import BoxSearch.Bounds.Tensor

/-!
Populations that come with their fitness.

A run can start from rows that were evaluated before. They must fit: one row per individual, one
fitness row per position, the declared number of objectives, and every position inside the box.
-/

namespace BoxSearch.Population

variable {α : Type} [Scalar α]

/-- Positions and fitness with a common number of rows; `width` is the number of objectives. -/
structure Evaluated (α : Type) where
  X : Rows α
  F : Rows α
  width : Nat
deriving BEq

/-- A fitness vector stands for one objective per row. -/
def column (F : Tensor α) : Tensor α :=
  match F.shape with
  | [count] => ⟨[count, 1], F.entries⟩
  | _ => F

/-- Checks positions and fitness against the size of the population, the box, and the declared
number of objectives. -/
def check (X F : Tensor α) (popSize : Int) (bounds : Bounds α) (declared : Option Int) :
    Except Error (Evaluated α) :=
  let expected : List Int := [popSize, bounds.dim]
  let F := column F
  if X.dims != expected then
    .error (.configuration (.populationShape X.dims expected))
  else
    match X.rows?, F.rows? with
    | some (_, positions), some (width, fitness) =>
      if (fitness.size : Int) != popSize || width == 0 then
        .error (.configuration (.fitnessShape F.dims popSize))
      else if declared.any (· != (width : Int)) then
        .error (.configuration (.fitnessWidth width (declared.getD 0)))
      else if !bounds.holdsRows positions then .error (.configuration .populationOutside)
      else .ok ⟨positions, fitness, width⟩
    | _, _ => .error (.configuration (.fitnessShape F.dims popSize))

/-- An array out of a value that should hold numbers. -/
def numbers (v : Value) : Except Error (Tensor Float) :=
  match v.toTensor with
  | .error (.fault .overflow) => .error (.fault .overflow)
  | .error _ => .error (.configuration .populationNotNumeric)
  | .ok t => .ok t

/-- `check` for values that should hold numbers. -/
def ofValues (X F popSize : Value) (bounds : Bounds Float) (declared : Option Int) :
    Except Error (Evaluated Float) := do
  let X ← numbers X
  let F ← numbers F
  check X F (← popSize.toInt) bounds declared

end BoxSearch.Population
