import BoxSearch.Evaluation.Chunk
import BoxSearch.Text.LowerCase

/-!
Ways to evaluate a batch.

A batch is evaluated in one piece, or in chunks whose results arrive in some order. Which order
that is does not show: `gather` sorts the parts, and the answer is the same as in one piece. The
chunks are evaluated one after another here, since results are required not to depend on it.
-/

namespace BoxSearch

/-- How a batch is evaluated. The chunked kinds carry a number of workers and a wanted chunk
length. A custom way belongs to the caller, who gives it a name. -/
inductive Backend (σ : Type) where
  | serial
  | threads (workers : Nat) (chunk : Option Int)
  | jobs (workers : Nat) (chunk : Option Int)
  | custom (type : String)
      (evaluate : Target σ → Rows Float → Act σ (Block Float Value))

namespace Backend

variable {σ : Type}

def typeName : Backend σ → String
  | serial => "SerialEvalBackend"
  | threads .. => "ThreadEvalBackend"
  | jobs .. => "JoblibEvalBackend"
  | custom type _ => type

/-- The number of workers where none is asked for. -/
def defaultWorkers : Nat := 4

/-- The number of workers meant by a request; no request, and one that counts as nothing, mean the
default, and there is always one worker. -/
def workersOf (v : Value) : Except Error Nat :=
  if !v.truthy then .ok defaultWorkers
  else match v with
    | .int n => .ok (max 1 n).toNat
    | .bool _ => .ok 1
    | .float x => if 1.0 < x then return (← Value.truncate x).toNat else return 1
    | _ => .error (.fault .type)

def chunkOf : Value → Except Error (Option Int)
  | .absent => .ok none
  | .int n => .ok (some n)
  | .bool b => .ok (some (if b then 1 else 0))
  | .float x => return some (← Value.truncate x)
  | _ => .error (.fault .type)

def ofThreads (workers chunk : Value) : Except Error (Backend σ) :=
  return .threads (← workersOf workers) (← chunkOf chunk)

/-- Evaluation over jobs; a preference for processes is accepted and makes no difference. -/
def ofJobs (workers : Value) (prefer : Option Value) (chunk : Value) :
    Except Error (Backend σ) := do
  let workers ← workersOf workers
  match prefer.getD (.text "threads") with
  | .text mode => if mode != "threads" && mode != "processes" then throw (.misuse .chunkPreference)
  | .list _ | .record _ => throw (.fault .type)
  | _ => throw (.misuse .chunkPreference)
  return .jobs workers (← chunkOf chunk)

/-- Results of chunks in the order in which they arrived, each with its start: one block, or the
first failure to arrive. -/
def gather (n : Nat) (arrived : List (Nat × Except Error (Block Float Value))) :
    Except Error (Block Float Value) := do
  let parts ← arrived.mapM fun (start, result) => return ({ start, block := ← result } : Part _ _)
  Part.stitch n parts

/-- Evaluates chunk by chunk. Every chunk is evaluated, also after one has failed. -/
def evaluateChunks (target : Target σ) (X : Rows Float) (slices : List Slice) :
    Act σ (List (Nat × Except Error (Block Float Value))) :=
  slices.mapM fun slice => do
    let result ← Act.outcome (target.evaluate (X.extract slice.start slice.stop))
    return (slice.start, result)

/-- Evaluates a batch in chunks; one worker or one row needs none. -/
def evaluateWith (workers : Nat) (chunk : Option Int) (target : Target σ) (X : Rows Float) :
    Act σ (Block Float Value) := do
  if workers ≤ 1 || X.size ≤ 1 then target.evaluate X
  else gather X.size (← evaluateChunks target X (Slice.chunks X.size workers chunk))

def evaluate : Backend σ → Target σ → Rows Float → Act σ (Block Float Value)
  | serial, target, X => target.evaluate X
  | threads workers chunk, target, X => evaluateWith workers chunk target X
  | jobs workers chunk, target, X => evaluateWith workers chunk target X
  | custom _ evaluate, target, X => evaluate target X

/-- A backend as it is asked for: a ready one, or a value that should name one. -/
inductive Source (σ : Type) where
  | ready (backend : Backend σ)
  | named (v : Value)

/-- The name meant by a request; nothing and an empty name mean evaluation in one piece. -/
def nameOf (name : String) : String := if name.isEmpty then "serial" else Text.lower name

def resolve (source : Source σ) (workers chunk : Value) : Act σ (Backend σ) :=
  match source with
  | .ready backend => return backend
  | .named .absent => named ""
  | .named (.text name) => named name
  | .named v => throw (.backend v.shown)
where
  named (name : String) : Act σ (Backend σ) := do
    let key := nameOf name
    Act.log (.resolvingBackend key workers)
    if key == "serial" then return .serial
    else if key == "threads" || key == "thread" || key == "threading" then
      match ofThreads workers chunk with
      | .ok backend => return backend
      | .error e => throw e
    else if key == "joblib" then
      match ofJobs workers none chunk with
      | .ok backend => return backend
      | .error e => throw e
    else throw (.backend name)

/-- The name under which a requested backend is reported, and whether the run made it. -/
def Source.label : Source σ → String × Bool
  | .ready backend => (backend.typeName, false)
  | .named (.text name) => (nameOf name, true)
  | .named .absent => ("serial", true)
  | .named v => (v.typeName, false)

end Backend

end BoxSearch
