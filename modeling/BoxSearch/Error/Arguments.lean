import BoxSearch.Value.Arguments

/-!
Reports put together from arguments.

Every kind of failure has its own parameters; which are required, and what the others default to, is
part of the kind.
-/

namespace BoxSearch.Report

/-- The parameters of a kind of failure, and how many of them are required. -/
def parameters : Kind → List String × Nat
  | .general | .configuration | .problem | .optimization => (["message", "suggestion", "details"], 1)
  | .parameter => (["name", "value", "expected", "owner"], 3)
  | .algorithm => (["algorithm", "available", "close_matches"], 1)
  | .backend => (["backend", "available"], 1)
  | .termination => (["termination", "reason"], 1)
  | .bounds => (["message"], 1)
  | .evaluation => (["message", "solution"], 1)
  | .state => (["message", "state"], 1)

private def text? : Value → Option String
  | .text s => some s
  | _ => none

/-- The texts of a list; nothing stands for none. -/
private def texts (v : Value) : List String :=
  (v.parts?.getD []).map Value.plain

/-- The fields of a record; anything else has none. -/
private def factsOf : Value → Record
  | .record r => r
  | _ => []

/-- The report of a kind with one value per parameter. -/
private def ofValues (kind : Kind) (v : String → Value) : Report :=
  match kind with
  | .general | .configuration | .problem | .optimization =>
    ⟨(v "message").plain, text? (v "suggestion"), factsOf (v "details")⟩
  | .parameter => .parameter (v "name").plain (v "value") (v "expected").plain (text? (v "owner"))
  | .algorithm =>
    .algorithm (v "algorithm").plain (texts (v "available")) (texts (v "close_matches"))
  | .backend => .backend (v "backend").plain (texts (v "available"))
  | .termination => .termination (v "termination") (text? (v "reason"))
  | .bounds => .bounds (v "message").plain
  | .evaluation => .evaluation (v "message").plain (v "solution")
  | .state => .state (v "message").plain (v "state")

/-- The report of a kind from arguments given by place and by name. -/
def ofArguments (kind : Kind) (args : List Value) (named : Record) : Except Error Report := do
  let (names, required) := parameters kind
  let given := names.zip (← Arguments.bind names required args named)
  return ofValues kind fun name => ((given.find? (·.1 == name)).bind (·.2)).getD .absent

end BoxSearch.Report
