import BoxSearch.Error.Report
import BoxSearch.Solver.Phase

/-!
Why an operation fails.

`Error` lists the causes; `Error.message?` is the only place where they become text. Three groups
have no advice to give: `misuse` is a call that breaks a stated rule, `fault` a value that cannot
be used as the number or array it should be, and `raised` a failure of a function that the caller
supplied.
-/

namespace BoxSearch

/-- The shape of an array as shown in messages: a single length keeps its comma. -/
def shapeText : List Int → String
  | [] => "()"
  | [n] => "(" ++ toString n ++ ",)"
  | ns => "(" ++ ", ".intercalate (ns.map toString) ++ ")"

/-- What is wrong with the way a run is set up. -/
inductive ConfigurationIssue where
  | populationNotNumeric
  | populationShape (got expected : List Int)
  | fitnessShape (got : List Int) (rows : Int)
  | fitnessWidth (got : Nat) (declared : Int)
  | populationOutside
  | twoPopulations
  | initializerShape (got expected : List Int)
  | filterNotCallable
  | filterExhausted (tries row : Nat)
  | severalObjectives (count : Int)
  | settingsType (algorithm type expected : String)
  | algorithmType (type : String)
  | callbackNotCallable
  | recordNotCallable
  | initializerNotCallable
  | populationNotPair
  | notAnObserver (type : String)
deriving BEq, DecidableEq

/-- Message and suggestion of a set-up issue. -/
def ConfigurationIssue.report : ConfigurationIssue → Report
  | populationNotNumeric => .simple "Initial population must be numeric: " none
  | populationShape got expected =>
    .simple ("Initial population has shape " ++ shapeText got ++ ", expected " ++
        shapeText expected ++ ".")
      (some "Pass one row per individual and one column per dimension")
  | fitnessShape got rows =>
    .simple ("Initial fitness has shape " ++ shapeText got ++ ", expected " ++ toString rows ++
        " rows.")
      (some "Pass one fitness row per individual")
  | fitnessWidth got declared =>
    .simple ("Initial fitness has " ++ toString got ++ " objective(s), declared n_obj=" ++
      toString declared ++ ".") none
  | populationOutside =>
    .simple "Initial population has rows outside the bounds."
      (some <| "Clip the rows before evaluating them so the fitness matches " ++
        "the stored positions")
  | twoPopulations =>
    .simple "Pass either an initializer or an initial population, not both." none
  | initializerShape got expected =>
    .simple ("Initializer returned shape " ++ shapeText got ++ ", expected " ++
        shapeText expected ++ ".")
      (some "Return one row per individual and one column per dimension")
  | filterNotCallable =>
    .simple "uniform_by needs a callable filter." (some "Pass a function x -> bool")
  | filterExhausted tries row =>
    .simple ("uniform_by filter rejected " ++ toString tries ++ " samples for individual " ++
        toString row ++ ".")
      (some "Loosen the filter or tighten the bounds around the accepted region")
  | severalObjectives count =>
    .simple ("FitnessThreshold needs a single-objective problem; the problem has " ++
        toString count ++ " objectives.")
      (some "Use MaxGenerations, NoImprovement or a Predicate for multi-objective runs")
  | settingsType algorithm type expected =>
    .simple (algorithm ++ " cannot use settings of type " ++ type ++ ".")
      (some ("Pass a " ++ expected ++ ", a mapping, or keyword settings"))
  | algorithmType type =>
    .simple ("Cannot build an algorithm from " ++ type ++ ".")
      (some <| "Pass an algorithm name, an Algorithm instance, or a frozen *ConfigData from " ++
        "the config builders")
  | callbackNotCallable =>
    .simple "callback must be callable." (some "Pass a function taking the generation view")
  | recordNotCallable =>
    .simple "record must be callable." (some "Pass a function taking the generation view")
  | initializerNotCallable =>
    .simple "initializer must be callable." (some "Pass a function ctx -> X")
  | populationNotPair =>
    .simple "initial_population must be an (X, F) pair." (some "Pass the positions and their fitness")
  | notAnObserver type =>
    .simple (type ++ " is not an Observer.") (some "Implement on_start, on_generation and on_end")

/-- What is wrong with a box. -/
inductive BoundsIssue where
  | notNumeric
  | shape (got : List Int)
  | noDimension
  | notFinite
  | inverted (dimensions : List Nat)
  | shapesDiffer (lower upper : List Int)
deriving BEq, DecidableEq

def BoundsIssue.message : BoundsIssue → String
  | notNumeric => "Bounds must be numeric (low, high) pairs: "
  | shape got => "Bounds must have shape (n_var, 2), got " ++ shapeText got ++ "."
  | noDimension => "Bounds must cover at least one dimension."
  | notFinite => "Bounds must be finite."
  | inverted dimensions =>
    "Inverted bounds (low > high) in dimension(s) [" ++
      ", ".intercalate (dimensions.map toString) ++ "]."
  | shapesDiffer lower upper =>
    "Lower and upper bounds differ in shape: " ++ shapeText lower ++ " vs " ++ shapeText upper ++ "."

/-- What goes wrong in an evaluation. The objective is named where a single one is to blame. -/
inductive EvaluationIssue where
  | raised (objective kind shown : String)
  | noProduct (objective : String) (returned : Value)
  | notNumeric (objective : String) (returned : Value)
  | shape (objective : String) (got : List Int)
  | unevenRow (objective : String) (got row expected : Nat)
  | declaredWidth (objective : Option String) (got : Nat) (declared : Int)
  | unevenChunk (got start expected : Nat)
  | changedWidth (got : Nat) (earlier : Int)
  | rowCount (got expected : Nat)
  | productCount (got expected : Nat)

def EvaluationIssue.message : EvaluationIssue → String
  | raised objective kind shown => "Objective '" ++ objective ++ "' raised " ++ kind ++ ": " ++ shown
  | noProduct objective returned =>
    "Objective '" ++ objective ++ "' is flagged returns_product and must return " ++
      "(fitness, product), got " ++ returned.shown ++ "."
  | notNumeric objective returned =>
    "Objective '" ++ objective ++ "' returned a non-numeric value " ++ returned.shown ++ "."
  | shape objective got =>
    "Objective '" ++ objective ++ "' must return a float or a flat sequence, got shape " ++
      shapeText got ++ "."
  | unevenRow objective got row expected =>
    "Objective '" ++ objective ++ "' returned " ++ toString got ++ " values for row " ++
      toString row ++ ", expected " ++ toString expected ++ "."
  | declaredWidth objective got declared =>
    let who := match objective with
      | some name => "Objective '" ++ name ++ "'"
      | none => "Objective"
    who ++ " returned " ++ toString got ++ " values, declared n_obj=" ++ toString declared ++ "."
  | unevenChunk got start expected =>
    "Objective returned " ++ toString got ++ " values for rows starting at " ++ toString start ++
      ", expected " ++ toString expected ++ "."
  | changedWidth got earlier =>
    "Objective returned " ++ toString got ++ " values, earlier evaluations returned " ++
      toString earlier ++ "."
  | rowCount got expected =>
    "Evaluation returned " ++ toString got ++ " rows for " ++ toString expected ++ " candidates."
  | productCount got expected =>
    "Evaluation returned " ++ toString got ++ " products for " ++ toString expected ++
      " candidates."

/-- How a run is used out of order, and the phase it was in. -/
inductive LifecycleIssue where
  | noResult (phase : Phase)
  | alreadySolved (phase : Phase)
deriving Repr, BEq, DecidableEq

def LifecycleIssue.message : LifecycleIssue → String
  | noResult phase => "No result available in state '" ++ phase.name ++ "'."
  | alreadySolved _ => "solve() can only be called once per Solver."

/-- The phase in which the run was misused. -/
def LifecycleIssue.phase : LifecycleIssue → Phase
  | noResult phase | alreadySolved phase => phase

/-- The general ways in which a value can be unusable. -/
inductive Category where
  | value
  | type
  | lookup
  | key
  | index
  | overflow
  | attribute
  | axis
  | zeroDivision
  | frozen
  | unfinished
deriving Repr, BEq, DecidableEq

/-- Calls that break a stated rule of an operation. -/
inductive Misuse where
  | rangeInverted (low high : String)
  | negativeSpread (std : String)
  | emptyRange (n : String)
  | poolTooSmall (wanted pool : Int)
  | negativeStream (id : Int)
  | noObjectives
  | frontLimit
  | chunkPreference
  | logInterval
  | duplicateKey (key registry : String)
  | unknownKey (key registry : String)
  | objectiveNotCallable
  | notAProblem
  | nothingOffered
  | emptyFront
  | notEvaluated
  | replaceUnevaluated
  | noSolution
deriving Repr, BEq, DecidableEq

/-- The category a broken rule falls into. -/
def Misuse.category : Misuse → Category
  | rangeInverted .. | negativeSpread .. | emptyRange .. | poolTooSmall .. | negativeStream ..
  | noObjectives | frontLimit | chunkPreference | logInterval | duplicateKey .. => .value
  | unknownKey .. => .key
  | objectiveNotCallable | notAProblem => .type
  | nothingOffered | emptyFront | notEvaluated | replaceUnevaluated | noSolution => .lookup

def Misuse.message : Misuse → String
  | rangeInverted low high =>
    "uniform() requires low <= high, got low=" ++ low ++ ", high=" ++ high ++ "."
  | negativeSpread std => "normal() requires std >= 0, got " ++ std ++ "."
  | emptyRange n => "index() requires n > 0, got " ++ n ++ "."
  | poolTooSmall wanted pool =>
    "Cannot draw " ++ toString wanted ++ " distinct indices from a pool of " ++ toString pool ++ "."
  | negativeStream id => "stream ids must be non-negative, got " ++ toString id ++ "."
  | noObjectives => "n_obj must be positive when provided."
  | frontLimit => "front limit must be positive."
  | chunkPreference => "prefer must be 'threads' or 'processes'."
  | logInterval => "every must be positive."
  | duplicateKey key registry =>
    "Key '" ++ key ++ "' already exists in registry '" ++ registry ++ "'"
  | unknownKey key registry => "Key '" ++ key ++ "' not found in registry '" ++ registry ++ "'"
  | objectiveNotCallable => "objective must be callable."
  | notAProblem =>
    "problem must be a Problem, an object with 'bounds' (Bounds) and 'evaluate(X)', " ++
      "or a (bounds, objective) tuple."
  | nothingOffered => "No solution has been offered yet."
  | emptyFront => "The Pareto front is empty."
  | notEvaluated => "Population has not been evaluated yet."
  | replaceUnevaluated => "replace() needs an evaluated population; call evaluate_all() first."
  | noSolution => "No evaluated solution yet."

/-- A failure of a function that the caller supplied: its kind, its text, and the text as it is
shown inside another message. -/
structure Raised where
  kind : String
  text : String
  shown : String
deriving Repr, BEq, DecidableEq

/-- Why an operation fails. -/
inductive Error where
  | parameter (name : String) (value : Value) (expected : String) (owner : Option String)
  | algorithm (name : String) (available close : List String)
  | backend (name : String)
  | termination (criterion : Value) (reason : Option String)
  | configuration (issue : ConfigurationIssue)
  | bounds (issue : BoundsIssue)
  | evaluation (issue : EvaluationIssue) (solution : Option (Array Float))
  | lifecycle (issue : LifecycleIssue)
  | misuse (rule : Misuse)
  | fault (category : Category)
  | raised (failure : Raised)

namespace Error

/-- The report of a failure that the library gives advice on, with its kind. -/
def report? : Error → Option (Kind × Report)
  | parameter name value expected owner =>
    some (.parameter, .parameter name value expected owner)
  | algorithm name available close => some (.algorithm, .algorithm name available close)
  | backend name => some (.backend, .backend name Report.knownBackends)
  | termination criterion reason => some (.termination, .termination criterion reason)
  | configuration issue => some (.configuration, issue.report)
  | bounds issue =>
    let report := Report.bounds issue.message
    some (.bounds, if issue == .notNumeric then { report with suggestion := none } else report)
  | evaluation issue solution =>
    some (.evaluation, .evaluation issue.message
      (match solution with
        | some x => .ofFloats x
        | none => .absent))
  | lifecycle issue => some (.state, .state issue.message (.text issue.phase.name))
  | misuse _ | fault _ | raised _ => none

/-- The text of a failure; a bare fault has none. -/
def message? (e : Error) : Option String :=
  match e.report? with
  | some (_, report) => some report.text
  | none => match e with
    | misuse rule => some rule.message
    | raised failure => some failure.text
    | _ => none

end Error

end BoxSearch
