import BoxSearch.Session
import BoxSearch.Solver.Result
import BoxSearch.Value.Arguments

/-!
Observers of a run.

An observer reacts to the start of a run, to every generation, and to the end. A reaction may write
log entries and may fail. `Observer.progress` is the one that the library provides: it logs a line
every so many generations.
-/

namespace BoxSearch

/-- What is known of a run when it starts. -/
structure RunInfo where
  problem : String
  algorithm : String
  settings : Record
  seed : Int
  popSize : Int
  backend : String

/-- Reactions to the events of a run. -/
structure Observer (σ : Type) where
  onStart : RunInfo → Act σ Unit
  onGeneration : View Float → Act σ Unit
  onEnd : (generations nEval : Int) → Act σ Unit

/-- An observer as it is handed in; of anything else, only the kind matters. -/
inductive Observer.Source (σ : Type) where
  | observer (o : Observer σ)
  | other (type : String)

def Observer.ofSource {σ : Type} : Observer.Source σ → Except Error (Observer σ)
  | .observer o => .ok o
  | .other type => .error (.configuration (.notAnObserver type))

namespace Progress

/-- How often progress is logged, and at which level, which should be a whole number. -/
structure Pace where
  every : Nat
  level : Value

def Pace.log {σ : Type} (pace : Pace) (line : String) : Act σ Unit :=
  match pace.level with
  | .int level => Act.log (.progress level line)
  | .bool b => Act.log (.progress (if b then 1 else 0) line)
  | _ => throw (.fault .type)

/-- The interval that a value asks for. Fractions are cut off after the check, so that an interval
of zero is possible; such a pace fails when a generation is seen. -/
def intervalOf (v : Value) : Except Error Nat := do
  let x ← match v with
    | .int n => if n ≤ 0 then throw (.misuse .logInterval) else return n.toNat
    | .bool b => if b then return 1 else throw (.misuse .logInterval)
    | .float x => pure x
    | _ => throw (.fault .type)
  if x ≤ 0.0 then throw (.misuse .logInterval)
  return (← Value.truncate x).toNat

/-- The interval between two lines where none is given. -/
def defaultInterval : Nat := 10

/-- A pace from arguments given by place: an interval, a level, and a logger, which changes nothing
here. -/
def Pace.ofArguments (args : List Value) : Except Error Pace := do
  let given (i : Nat) (usual : Int) : Value := args.getD i (.int usual)
  let _ ← Arguments.bind ["every", "level", "logger"] 0 args []
  return ⟨← intervalOf (given 0 defaultInterval), given 1 Log.Level.info⟩

def startLine (info : RunInfo) : String :=
  "Starting " ++ info.algorithm ++ " on " ++ info.problem ++ " (pop_size=" ++
    toString info.popSize ++ ", seed=" ++ toString info.seed ++ ", backend=" ++ info.backend ++ ")"

/-- What a line says about the state of the search: the size of the front, or the best fitness. -/
def standing (view : View Float) : Except Error String :=
  if view.isMultiObjective then
    match view.frontF.map (·.shape) with
    | some (count :: _) => .ok ("front " ++ toString count)
    | _ => .error (.fault .type)
  else match view.bestF with
    | some (.number f) => .ok ("best " ++ Decimal.brief f)
    | _ => .error (.fault .type)

def generationLine (view : View Float) : Except Error String := do
  return "gen " ++ Decimal.padded 5 view.generation ++ " | evals " ++
    Decimal.padded 7 view.nEval ++ " | " ++ (← standing view)

def endLine (generations nEval : Int) : String :=
  "Finished after " ++ toString generations ++ " generations and " ++ toString nEval ++
    " evaluations"

end Progress

def Observer.progress {σ : Type} (pace : Progress.Pace) : Observer σ where
  onStart info := pace.log (Progress.startLine info)
  onGeneration view := do
    if pace.every == 0 then throw (.fault .zeroDivision)
    if view.generation % pace.every == 0 then
      let line ← MonadExcept.ofExcept (Progress.generationLine view)
      pace.log line
  onEnd generations nEval := pace.log (Progress.endLine generations nEval)

/-- Hands every event over as a list that starts with its kind. -/
def Observer.recorder {σ : Type} (store : Value → Act σ Unit) : Observer σ where
  onStart info := store <| .list
    [.text "start", .text info.algorithm, .record info.settings, .int info.seed, .int info.popSize,
     .text info.backend]
  onGeneration view := store (.list [.text "generation", .int view.generation, .int view.nEval])
  onEnd generations _ := store (.list [.text "end", .int generations])

end BoxSearch
