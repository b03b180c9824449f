import BoxSearch.Run.Initial
import BoxSearch.Solver.Observer
import BoxSearch.Stopping.Source
import BoxSearch.Strategy.Basic

/-!
Planning a run.

A plan is a run with every choice made and checked: what is minimised, by which strategy, from
which population, until when, and who watches. Nothing is evaluated while planning. The checks come
in a fixed order, and the first that fails is reported.
-/

namespace BoxSearch

/-- The seed of a run as it is asked for: a value to read one from, or a seed that is settled. -/
inductive SeedSource where
  | value (v : Value)
  | settled (seed : Nat)

/-- A function of the caller as it is handed in; `other` is no function. -/
inductive Hook (β : Type) where
  | none
  | function (f : β)
  | other

/-- What a run is planned from. -/
structure Request (σ : Type) where
  strategy : Settings.Request
  overrides : Record
  target : Target.Source σ
  stopping : Policy.Source σ
  seed : SeedSource
  backend : Backend.Source σ
  workers : Value
  callback : Hook (View Float → Call σ Value)
  record : Hook (View Float → Call σ Value)
  observers : List (Observer.Source σ)
  initializer : Hook (Initializer σ)
  frontLimit : Value
  population : Value
  clock : Call σ Float

/-- The parameters of a request that are no settings of its strategy. -/
def Request.parameters : List String :=
  ["termination", "seed", "eval_backend", "n_workers", "callback", "observers", "initializer",
   "front_limit", "record", "initial_population"]

/-- A run with every choice made. A plan that `owns` its backend gives it back after the run. -/
structure Plan (σ : Type) where
  settings : Settings
  target : Target σ
  policy : Policy σ Float
  seed : Nat
  backend : Backend σ
  backendName : String
  owns : Bool
  callback : Option (View Float → Call σ Value)
  record : Option (View Float → Call σ Value)
  observers : List (Observer σ)
  initializer : Option (Initializer σ)
  frontLimit : Option Nat
  population : Option (Population.Evaluated Float)
  clock : Call σ Float

namespace Hook

variable {β : Type}

/-- The function, if there is one; anything else that was handed in is an issue. -/
def resolve (h : Hook β) (issue : ConfigurationIssue) : Except Error (Option β) :=
  match h with
  | .none => .ok Option.none
  | .function f => .ok (some f)
  | .other => .error (.configuration issue)

end Hook

namespace Plan

variable {σ : Type}

/-- The population to start from, checked against the plan so far. -/
def populationOf (v : Value) (hasInitializer : Bool) (settings : Settings) (target : Target σ)
    (policy : Policy σ Float) : Except Error (Option (Population.Evaluated Float)) :=
  match v with
  | .absent => .ok none
  | v => do
    if hasInitializer then throw (.configuration .twoPopulations)
    match v.parts? with
    | some [X, F] =>
      let p ← Population.ofValues X F (.int settings.popSize) target.bounds target.nObj
      policy.checkObjectives (some p.width)
      return some p
    | _ => throw (.configuration .populationNotPair)

/-- The limit on the size of a front: a positive whole number, or none. -/
def frontLimitOf (v : Value) : Except Error (Option Nat) :=
  let refuse : Except Error (Option Nat) :=
    .error (.parameter "front_limit" v "a positive integer or None" none)
  match v with
  | .absent => .ok none
  | .int n => if n ≤ 0 then refuse else .ok (some n.toNat)
  | _ => refuse

/-- The number of workers must be positive if it is given. -/
def checkWorkers (v : Value) : Except Error Unit :=
  match v with
  | .absent => .ok ()
  | v => do
    if (← v.toInt) ≤ 0 then throw (.parameter "n_workers" v "a positive integer or None" none)

/-- Makes a plan of a request; `fresh` is the seed where none is asked for. -/
def ofRequest (r : Request σ) (fresh : Nat) : Act σ (Plan σ) := do
  let settings := (← ofExcept (Settings.build r.strategy r.overrides)).settings
  let target ← ofExcept (Target.ofSource r.target)
  let policy ← ofExcept (Policy.ofSource r.stopping)
  ofExcept (policy.checkObjectives target.nObj)
  let seed ← match r.seed with
    | .settled seed => pure seed
    | .value v => ofExcept (seedOf fresh v)
  let callback ← ofExcept (r.callback.resolve .callbackNotCallable)
  let record ← ofExcept (r.record.resolve .recordNotCallable)
  let initializer ← ofExcept (r.initializer.resolve .initializerNotCallable)
  let population ← ofExcept
    (populationOf r.population initializer.isSome settings target policy)
  let frontLimit ← ofExcept (frontLimitOf r.frontLimit)
  ofExcept (checkWorkers r.workers)
  let observers ← ofExcept (r.observers.mapM Observer.ofSource)
  let backend ← Backend.resolve r.backend r.workers .absent
  let (backendName, owns) := r.backend.label
  return {
    settings, target, policy, seed, backend, backendName, owns, callback, record, observers,
    initializer, frontLimit, population, clock := r.clock }
where
  ofExcept {β : Type} (result : Except Error β) : Act σ β := MonadExcept.ofExcept result

end Plan

end BoxSearch
