import BoxSearch.Scalar.Basic

/-!
What the library logs.

Each entry of the log is an `Event`; its level, the name of its logger and its text follow from it.
The texts of progress observers are entries like any other.
-/

namespace BoxSearch.Log

/-- The importance of an entry. The three named levels have their usual numbers. -/
abbrev Level := Int

def Level.debug : Level := 10
def Level.info : Level := 20
def Level.warning : Level := 30

/-- The name under which a level is printed. -/
def Level.name (level : Level) : String :=
  if level == 10 then "DEBUG"
  else if level == 20 then "INFO"
  else if level == 30 then "WARNING"
  else if level == 40 then "ERROR"
  else if level == 50 then "CRITICAL"
  else if level == 0 then "NOTSET"
  else "Level " ++ toString level

def packageName : String := "natureopt"

/-- What happened. -/
inductive Event where
  | resolvingBackend (name : String) (workers : Value)
  | objectivesDetected (count : Nat)
  | nonFinite (count : Nat)
  | seeded (count : Nat)
  | dropped (limit index : Nat)
  | noChildren (generation : Nat)
  | started (strategy : String) (popSize dim : Nat) (nObj : Option Int) (seed : Nat)
      (backend termination : String)
  | generation (number nEval : Nat) (best : Value) (front : Nat)
  | aborted (generations : Nat)
  | nonFiniteTotal (count : Nat)
  | finished (strategy : String) (generations nEval : Nat)
  | progress (level : Level) (text : String)

namespace Event

def level : Event → Level
  | resolvingBackend .. | objectivesDetected .. | seeded .. | dropped .. | noChildren ..
  | generation .. | aborted .. => .debug
  | started .. | finished .. => .info
  | nonFinite .. | nonFiniteTotal .. => .warning
  | progress level _ => level

/-- The name of the logger that an entry belongs to. -/
def logger : Event → String
  | resolvingBackend .. => packageName ++ ".foundation.eval.backends"
  | objectivesDetected .. | nonFinite .. | seeded .. => packageName ++ ".engine.context"
  | dropped .. => packageName ++ ".engine.archive"
  | noChildren .. => packageName ++ ".engine.algorithm.rga"
  | started .. | generation .. | aborted .. | nonFiniteTotal .. | finished .. =>
    packageName ++ ".engine.solver"
  | progress .. => packageName ++ ".progress"

def text : Event → String
  | resolvingBackend name workers =>
    "Resolving evaluation backend " ++ Text.quoted name ++ " (n_workers=" ++ workers.plain ++ ")"
  | objectivesDetected count => "Detected " ++ toString count ++ " objective(s)"
  | nonFinite count =>
    "Objective returned " ++ toString count ++
      " non-finite value(s) other than +inf; treating them as +inf"
  | seeded count => "Seeded " ++ toString count ++ " pre-evaluated individual(s)"
  | dropped limit index =>
    "Front above limit " ++ toString limit ++ "; dropped member " ++ toString index
  | noChildren number =>
    "RGA generation " ++ toString number ++ " produced no new children"
  | started strategy popSize dim nObj seed backend termination =>
    "Starting " ++ strategy ++ " (pop_size=" ++ toString popSize ++ ", dim=" ++ toString dim ++
      ", n_obj=" ++ (match nObj with | some n => toString n | none => "None") ++
      ", seed=" ++ toString seed ++ ", backend=" ++ backend ++
      ", termination=" ++ termination ++ ")"
  | generation number nEval best front =>
    "gen " ++ toString number ++ " | evals " ++ toString nEval ++ " | best " ++ best.plain ++
      " | front " ++ toString front
  | aborted generations => "Solve aborted after " ++ toString generations ++ " generation(s)"
  | nonFiniteTotal count =>
    toString count ++ " non-finite objective value(s) were treated as +inf"
  | finished strategy generations nEval =>
    "Finished " ++ strategy ++ " after " ++ toString generations ++ " generations and " ++
      toString nEval ++ " evaluations"
  | progress _ text => text

/-- An entry as one line: level, logger and text. -/
def line (e : Event) : String :=
  e.level.name ++ " " ++ e.logger ++ ": " ++ e.text

end Event

end BoxSearch.Log
