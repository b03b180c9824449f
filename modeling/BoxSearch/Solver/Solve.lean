import BoxSearch.Solver.Plan

/-!
Running a plan.

A solver runs its plan once. A generation is completed before anybody is told of it, and it enters
the history before the callback and the observers see it, so that the history always holds the
generation on which a run stopped. Whatever fails on the way ends the run: the solver is then
terminated, keeps the history so far, and has no result.
-/

namespace BoxSearch

/-- Where a solver stands: its phase, the generations completed so far, the result if there is one,
and how often it gave back a backend of its own. -/
structure Solver where
  phase : Phase
  history : Array (Snapshot (Best Float))
  result : Option (Result (Best Float))
  releases : Nat

/-- A computation of a solver. What it changed before a failure stays changed. -/
abbrev Solving (σ : Type) := ExceptT Error (StateM (Solver × Session σ))

namespace Solver

def fresh : Solver := ⟨.uninitialized, #[], none, 0⟩

/-- The result, which is there only after a run that came to its end. -/
def outcome (s : Solver) : Except Error (Result (Best Float)) :=
  match s.phase, s.result with
  | .resultAvailable, some result => .ok result
  | phase, _ => .error (.lifecycle (.noResult phase))

end Solver

namespace Solving

variable {σ β : Type}

def current : Solving σ Solver :=
  return (← getThe (Solver × Session σ)).1

def update (change : Solver → Solver) : Solving σ Unit :=
  modifyThe (Solver × Session σ) fun s => (change s.1, s.2)

def enter (phase : Phase) : Solving σ Unit :=
  update fun s => { s with phase }

def act (act : Act σ β) : Solving σ β :=
  ExceptT.mk fun (solver, session) =>
    let (result, session) := act.run session
    (result, (solver, session))

def log (event : Log.Event) : Solving σ Unit :=
  act (Act.log event)

/-- Works on a run; answers the run as it is afterwards. -/
def onRun (run : Run Float Value) (search : Search σ Float Value β) :
    Solving σ (β × Run Float Value) :=
  ExceptT.mk fun (solver, session) =>
    let (result, (run, session)) := search.run (run, session)
    (result.map (·, run), (solver, session))

/-- The outcome of a computation, failure or not. -/
def attempt (solving : Solving σ β) : Solving σ (Except Error β) :=
  ExceptT.lift (solving.run : StateM (Solver × Session σ) (Except Error β))

def ofExcept (result : Except Error β) : Solving σ β :=
  MonadExcept.ofExcept result

end Solving

namespace Plan

open Solving

variable {σ : Type}

def evaluator (plan : Plan σ) : Evaluator σ Float Value :=
  plan.backend.evaluate plan.target

def start (plan : Plan σ) : Run Float Value :=
  .start plan.target.bounds plan.settings.popSize plan.target.nObj
    (match plan.frontLimit with
      | some n => .int n
      | none => .absent)
    plan.seed

def populate (plan : Plan σ) : Search σ Float Value Unit :=
  match plan.population with
  | some p => do
    let run ← Search.current
    let p ← Search.ofExcept (Population.check (.ofRows run.dim p.X) (.ofRows p.width p.F)
      run.popSize run.bounds (Initial.declaredObjectives run))
    Search.seed p.X p.F p.width
  | none => Initial.populate (plan.initializer.getD .uniform)

/-- Makes the first population and has it evaluated. -/
def begin (plan : Plan σ) : Search σ Float Value Unit := do
  plan.populate
  let _ ← Search.evaluateAll plan.evaluator
  Search.updateBest

/-- What observers are told at the start. -/
def info (plan : Plan σ) (run : Run Float Value) : RunInfo where
  problem := plan.target.name
  algorithm := plan.settings.family.name
  settings := plan.settings.toRecord
  seed := plan.seed
  popSize := run.popSize
  backend := plan.backendName

def startEvent (plan : Plan σ) (run : Run Float Value) : Log.Event :=
  .started plan.settings.family.name run.popSize run.dim run.objectives plan.seed
    plan.backendName plan.policy.shown

/-- The mean fitness of the population: a number with one objective, a vector with several. -/
def meanFitness (run : Run Float Value) (F : Rows Float) : Best Float :=
  match run.front? with
  | none => .number (Scalar.mean (F.column 0))
  | some _ => .vector (Rows.meanRow (F.row 0).size F)

/-- The summary of the generation just completed. -/
def snapshot (plan : Plan σ) (run : Run Float Value) (view : View Float) :
    Act σ (Snapshot (Best Float)) := do
  let F ← MonadExcept.ofExcept run.fitness
  let best ← MonadExcept.ofExcept run.bestF
  let record ← match plan.record with
    | some record => Act.call (record view)
    | none => pure .absent
  return {
    generation := run.generation
    nEval := run.nEval
    best
    mean := meanFitness run F
    frontSize := (run.front?.map Front.size).getD 0
    record }

def generationEvent (s : Snapshot (Best Float)) : Log.Event :=
  .generation s.generation.toNat s.nEval.toNat s.best.toValue s.frontSize.toNat

def resultOf (plan : Plan σ) (run : Run Float Value) (history : List (Snapshot (Best Float))) :
    Except Error (Result (Best Float)) := do
  let best ← run.bestF
  let bestX ← run.bestX
  let product ← run.bestProduct
  return {
    bestX := .ofRow bestX
    best
    frontX := run.front?.map fun s => .ofRows s.nVar s.X
    frontF := run.front?.map fun s => .ofRows s.nObj s.F
    history
    nEval := run.nEval
    nObj := match run.objectives with
      | some n => if n == 0 then 1 else n
      | none => 1
    seed := plan.seed
    generations := run.generation
    algorithm := plan.settings.family.name
    product
    frontProducts := run.front?.map fun s => s.products.toList }

/-- One generation, from the step of the strategy to the question whether to stop. -/
def generation (plan : Plan σ) (run : Run Float Value) (watch : Watch Float) :
    Solving σ (Bool × Run Float Value × Watch Float) := do
  let (_, run) ← onRun run (Strategy.generation plan.settings plan.evaluator)
  let view := run.view
  let snap ← act (plan.snapshot run view)
  update fun s => { s with history := s.history.push snap }
  log (generationEvent snap)
  match plan.callback with
  | some callback => act do let _ ← Act.call (callback view)
  | none => pure ()
  plan.observers.forM fun o => act (o.onGeneration view)
  let (stop, watch) ← act (plan.policy.stops plan.clock watch view)
  return (stop, run, watch)

/-- Generations until the policy stops the run, at most as many as there is fuel for. -/
def loop (plan : Plan σ) : Nat → Run Float Value → Watch Float → Solving σ (Run Float Value)
  | 0, _, _ => throw (.fault .unfinished)
  | fuel + 1, run, watch => do
    let (stop, run, watch) ← plan.generation run watch
    if stop then return run else loop plan fuel run watch

/-- Fuel for a run without a bound of its own; no machine gets that far. -/
def unbounded : Nat := 1 <<< 60

/-- Fuel for the run: its bound on the number of generations, which stops it in time. -/
def fuel (plan : Plan σ) : Nat :=
  plan.policy.maxGenerations.getD unbounded

/-- The run from its first population to its result. -/
def attempt (plan : Plan σ) : Solving σ (Run Float Value × Result (Best Float)) := do
  let (_, run) ← onRun plan.start plan.begin
  enter .initialized
  let (_, run) ← onRun run (Strategy.prepare plan.settings)
  let watch ← act (plan.policy.start plan.clock run.view)
  log (plan.startEvent run)
  plan.observers.forM fun o => act (o.onStart (plan.info run))
  enter .running
  let run ← plan.loop plan.fuel run watch
  enter .terminated
  let result ← Solving.ofExcept (plan.resultOf run (← current).history.toList)
  return (run, result)

/-- Gives back a backend that the plan owns. -/
def release (plan : Plan σ) : Solving σ Unit :=
  if plan.owns then update fun s => { s with releases := s.releases + 1 } else pure ()

/-- Announces a result. It is available from here on, also if an observer fails. -/
def conclude (plan : Plan σ) (run : Run Float Value) (result : Result (Best Float)) :
    Solving σ (Result (Best Float)) := do
  if run.nonFinite != 0 then log (.nonFiniteTotal run.nonFinite)
  update fun s => { s with result := some result, phase := .resultAvailable }
  log (.finished plan.settings.family.name result.generations.toNat result.nEval.toNat)
  plan.observers.forM fun o => act (o.onEnd result.generations result.nEval)
  return result

/-- Runs the plan; a solver does this only once. -/
def solve (plan : Plan σ) : Solving σ (Result (Best Float)) := do
  let solver ← current
  if solver.phase != .uninitialized then throw (.lifecycle (.alreadySolved solver.phase))
  match ← Solving.attempt plan.attempt with
  | .error e =>
    enter .terminated
    log (.aborted (← current).history.size)
    plan.release
    throw e
  | .ok (run, result) =>
    plan.release
    plan.conclude run result

end Plan

def optimize {σ : Type} (r : Request σ) (fresh : Nat) : Solving σ (Result (Best Float)) := do
  let plan ← Solving.act (Plan.ofRequest r fresh)
  plan.solve

end BoxSearch
