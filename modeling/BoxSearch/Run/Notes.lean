import BoxSearch.Run.Basic

/-!
Notes on a run.

A note is an array or another value under a name. What a swarm remembers is read and written under
three names of its own, as long as it has one row per particle; everything else is a remark.
-/

namespace BoxSearch

/-- The parts of a swarm's memory. -/
inductive Swarm.Part where
  | velocity
  | bestX
  | bestF
deriving Repr, BEq, DecidableEq

namespace Swarm

def Part.all : List Part := [velocity, bestX, bestF]

/-- The name under which a part is noted. -/
def Part.name : Part → String
  | velocity => "velocity"
  | bestX => "pbest_X"
  | bestF => "pbest_F"

def Part.named? (name : String) : Option Part :=
  all.find? fun part => part.name == name

namespace Memory

variable {α : Type}

def get (m : Memory α) : Part → Option (Rows α)
  | .velocity => m.velocity
  | .bestX => m.bestX
  | .bestF => m.bestF

def set (m : Memory α) (part : Part) (rows : Option (Rows α)) : Memory α :=
  match part with
  | .velocity => { m with velocity := rows }
  | .bestX => { m with bestX := rows }
  | .bestF => { m with bestF := rows }

end Memory

end Swarm

namespace Note

variable {α : Type}

/-- The rows of a note with one row per individual. -/
def rows? (count : Nat) : Note α → Option (Rows α)
  | .array t => t.rows?.bind fun (_, rows) => if rows.size == count then some rows else none
  | .other _ => none

def ofRows [Scalar α] (rows : Rows α) : Note α :=
  .array (.ofRows (rows.row 0).size rows)

/-- The entry of an array at one index of its first dimension. -/
def slice (t : Tensor α) (i : Nat) : Tensor α :=
  let shape := t.shape.drop 1
  let size := Tensor.places shape
  ⟨shape, t.entries.extract (i * size) ((i + 1) * size)⟩

/-- The share that the `i`-th of `count` individuals has in a note. -/
def share? (count i : Nat) : Note α → Option (Tensor α)
  | .array t => if t.shape.head? == some count then some (slice t i) else none
  | .other _ => none

end Note

namespace Run

variable {α P : Type} [Scalar α]

def notes (run : Run α P) : List (String × Note α) :=
  Swarm.Part.all.filterMap (fun part =>
    (run.swarm.get part).map fun rows => (part.name, Note.ofRows rows)) ++ run.remarks

/-- The run without any remark under a name. -/
def forget (run : Run α P) (name : String) : Run α P :=
  { run with remarks := run.remarks.filter (·.1 != name) }

def remember (run : Run α P) (part : Swarm.Part) (rows : Rows α) : Run α P :=
  { run.forget part.name with swarm := run.swarm.set part (some rows) }

/-- A part of the swarm's memory. It is missing if nothing is noted under its name, and of no use
if something else is. -/
def remembered (run : Run α P) (part : Swarm.Part) : Except Error (Rows α) :=
  match run.swarm.get part with
  | some rows => .ok rows
  | none =>
    if run.remarks.any (·.1 == part.name) then .error (.fault .value) else .error (.fault .key)

/-- Something is noted as a part of the swarm's memory. -/
def remembers (run : Run α P) (part : Swarm.Part) : Bool :=
  (run.swarm.get part).isSome || run.remarks.any (·.1 == part.name)

/-- Sets a note. Under a name of the swarm, rows become part of its memory, and anything else
takes the place of that part. -/
def note (run : Run α P) (name : String) (note : Note α) : Run α P :=
  match Swarm.Part.named? name, note.rows? run.popSize with
  | some part, some rows => run.remember part rows
  | some part, none =>
    let run := run.forget name
    { run with swarm := run.swarm.set part none, remarks := run.remarks ++ [(name, note)] }
  | none, _ =>
    let run := run.forget name
    { run with remarks := run.remarks ++ [(name, note)] }

/-- The member of the population at an index. -/
def individual (run : Run α P) (i : Int) : Except Error (Individual α) := do
  let place ← placeOf run.popSize i
  return {
    x := run.X.row place
    f := if run.stale.getD place true then none else run.F.map (·.row place)
    notes := run.notes.filterMap fun (name, note) =>
      (note.share? run.popSize place).map fun t => (name, t) }

end Run

end BoxSearch
