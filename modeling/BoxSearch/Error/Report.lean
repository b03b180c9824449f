import BoxSearch.Value.Basic

/-!
What is told about a failure: a message, a suggestion and the facts behind it.

Failures form a small family: settings that are wrong, problems that are wrong, and runs that go
wrong. `Kind.parent` is that family; the functions of `Report` hold the wording of each kind.
-/

namespace BoxSearch

/-- The kinds of failure the library reports with advice. -/
inductive Kind where
  | general
  | configuration
  | parameter
  | algorithm
  | backend
  | termination
  | problem
  | bounds
  | optimization
  | evaluation
  | state
deriving Repr, BEq, DecidableEq

/-- The more general kind that a kind belongs to. -/
def Kind.parent : Kind → Option Kind
  | general => none
  | configuration | problem | optimization => some general
  | parameter | algorithm | backend | termination => some configuration
  | bounds => some problem
  | evaluation | state => some optimization

def Kind.all : List Kind :=
  [general, configuration, parameter, algorithm, backend, termination, problem, bounds, optimization,
   evaluation, state]

/-- The name under which failures of a kind are told apart. -/
def Kind.name : Kind → String
  | general => "NatureOptError"
  | configuration => "ConfigurationError"
  | parameter => "InvalidParameterError"
  | algorithm => "InvalidAlgorithmError"
  | backend => "InvalidBackendError"
  | termination => "InvalidTerminationError"
  | problem => "ProblemError"
  | bounds => "BoundsError"
  | optimization => "OptimizationError"
  | evaluation => "EvaluationError"
  | state => "SolverStateError"

def Kind.depth : Kind → Nat
  | general => 0
  | configuration | problem | optimization => 1
  | parameter | algorithm | backend | termination | bounds | evaluation | state => 2

/-- A more general kind is nearer to the root of the family. -/
theorem Kind.depth_lt_of_parent {k p : Kind} (h : k.parent = some p) : p.depth < k.depth := by
  cases k <;> cases p <;> simp_all [parent, depth]

/-- The more general kinds, the nearest first. -/
def Kind.ancestors (k : Kind) : List Kind :=
  match _h : k.parent with
  | some p => p :: p.ancestors
  | none => []
termination_by k.depth
decreasing_by exact depth_lt_of_parent (by assumption)

/-- A message, what to do about it, and the facts behind it. -/
structure Report where
  message : String
  suggestion : Option String
  details : Record

namespace Report

/-- The message, followed by the suggestion if there is one with any text. -/
def text (r : Report) : String :=
  match r.suggestion with
  | some s => if s.isEmpty then r.message else r.message ++ "\n\nSuggestion: " ++ s
  | none => r.message

/-- A message with an optional suggestion and no further facts. -/
def simple (message : String) (suggestion : Option String) : Report :=
  ⟨message, suggestion, []⟩

private def optionalText : Option String → Value
  | some s => .text s
  | none => .absent

/-- A setting `name`, of the settings called `owner` if that is known, has a value that is not
what was `expected`. -/
def parameter (name : String) (value : Value) (expected : String) (owner : Option String) :
    Report :=
  let place := match owner with
    | some o => if o.isEmpty then "" else " for " ++ o
    | none => ""
  { message := "Invalid value " ++ value.shown ++ " for '" ++ name ++ "'" ++ place ++ "."
    suggestion := some ("'" ++ name ++ "' must be " ++ expected)
    details := [("name", .text name), ("value", value), ("owner", optionalText owner)] }

/-- The names of the built-in strategies. -/
def knownAlgorithms : List String := ["rga", "de", "pso", "fa", "tlbo"]

/-- The names of the built-in ways to evaluate. -/
def knownBackends : List String := ["serial", "threads", "joblib"]

/-- No strategy is called `name`; those `close` to it are proposed. An empty list of available
names stands for the built-in ones. -/
def algorithm (name : String) (available close : List String) : Report :=
  let available := if available.isEmpty then knownAlgorithms else available
  let proposal :=
    if close.isEmpty then ""
    else ". Did you mean " ++ " or ".intercalate (close.map fun n => "'" ++ n ++ "'") ++ "?"
  { message := "Unknown algorithm '" ++ name ++ "'."
    suggestion := some ("Available algorithms: " ++ ", ".intercalate available ++ proposal)
    details := [("algorithm", .text name), ("available", .list (available.map .text))] }

def backend (name : String) (available : List String) : Report :=
  let available := if available.isEmpty then knownBackends else available
  { message := "Unknown evaluation backend '" ++ name ++ "'."
    suggestion := some ("Available backends: " ++ ", ".intercalate available)
    details := [("backend", .text name), ("available", .list (available.map .text))] }

/-- A stopping criterion that cannot be read, with the reason if one is known. -/
def termination (criterion : Value) (reason : Option String) : Report :=
  let why := match reason with
    | some r => if r.isEmpty then "" else " " ++ r
    | none => ""
  { message := "Unsupported termination criterion " ++ criterion.shown ++ "." ++ why
    suggestion := some <|
      "Use an int (max generations), a callable predicate, a Termination instance, " ++
      "or one of ('max_gen', n), ('min_fit', target), ('time', seconds), ('stall', n)"
    details := [("termination", criterion)] }

def bounds (message : String) : Report :=
  ⟨message,
    some "Ensure bounds are finite (low, high) pairs with low <= high for every dimension", []⟩

/-- An evaluation that failed, at `solution` if a single point is to blame. -/
def evaluation (message : String) (solution : Value) : Report :=
  ⟨message,
    some ("Check your objective function: it must return one float or " ++
      "a fixed-length sequence of floats"),
    [("solution", solution)]⟩

def state (message : String) (phase : Value) : Report :=
  ⟨message,
    some ("Build a new Solver for every run and read the result only after " ++
      "solve() returns"),
    [("state", phase)]⟩

end Report

end BoxSearch
