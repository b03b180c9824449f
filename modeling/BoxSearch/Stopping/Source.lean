import BoxSearch.Stopping.Policy
import BoxSearch.Value.Arguments

/-!
Policies from values.

A policy can be given ready made, as a number of generations, as a predicate, or as a pair of a
kind and a value. Each kind checks what it is made of.
-/

namespace BoxSearch.Policy

variable {σ : Type}

/-- Generations of a run where nothing is asked for. -/
def defaultGenerations : Nat := 200

/-- The bound on a run that waits for a fitness which may never be reached. -/
def safetyGenerations : Nat := 1000

/-- The name of the rule in the pair notation, under which its settings are reported. -/
def name (p : Policy σ Float) : String :=
  match p.rule with
  | .never => "max_gen"
  | .threshold _ => "min_fit"
  | .predicate _ => "predicate"
  | .stall .. => "stall"
  | .timeLimit _ => "time"

def typeName (p : Policy σ Float) : String :=
  match p.rule with
  | .never => "MaxGenerations"
  | .threshold _ => "FitnessThreshold"
  | .predicate _ => "Predicate"
  | .stall .. => "NoImprovement"
  | .timeLimit _ => "TimeLimit"

private def shownBound (p : Policy σ Float) : String :=
  match p.maxGenerations with
  | some n => toString n
  | none => "None"

def shown (p : Policy σ Float) : String :=
  match p.rule with
  | .never => "MaxGenerations(" ++ p.shownBound ++ ")"
  | .threshold target =>
    "FitnessThreshold(" ++ Decimal.text target ++ ", max_generations=" ++ p.shownBound ++ ")"
  | .predicate _ | .stall .. | .timeLimit _ =>
    p.typeName ++ "(max_generations=" ++ p.shownBound ++ ")"

/-- What is known of a policy, as a record. -/
def facts (p : Policy σ Float) : Record :=
  [("class", .text p.typeName), ("repr", .text p.shown), ("name", .text p.name),
   ("max_generations", .ofOption (fun n => .int n) p.maxGenerations)]

def positive (setting : String) (v : Value) (owner : String) : Except Error Nat :=
  match v.asInt? with
  | some n =>
    if n ≤ 0 then .error (.parameter setting v "a positive integer" (some owner)) else .ok n.toNat
  | none => .error (.parameter setting v "a positive integer" (some owner))

/-- An optional bound on the number of generations. -/
def bound (v : Value) (owner : String) : Except Error (Option Nat) :=
  match v with
  | .absent => .ok none
  | v => (positive "max_generations" v owner).map some

def ofGenerations (n : Value) : Except Error (Policy σ Float) := do
  return ⟨.never, some (← positive "n" n "max_gen")⟩

def ofThreshold (target bound : Value) : Except Error (Policy σ Float) := do
  let x ← target.toFloat
  if x.isNaN then throw (.parameter "target" (.float x) "a number" (some "min_fit"))
  return ⟨.threshold x, ← Policy.bound bound "min_fit"⟩

/-- Stops when a predicate holds; `given` is the predicate as a value, for the failure if it is
none. -/
def ofPredicate (holds : Option (View Float → Call σ Value)) (given bound : Value) :
    Except Error (Policy σ Float) :=
  match holds with
  | none => .error (.termination given (some "Predicate needs a callable."))
  | some holds => do return ⟨.predicate holds, ← Policy.bound bound "predicate"⟩

/-- Stops after generations without progress. -/
def ofStall (generations tol bound : Value) : Except Error (Policy σ Float) := do
  let bound ← Policy.bound bound "stall"
  let n ← positive "n_generations" generations "stall"
  let x ← tol.toFloat
  if !x.isFinite || x < 0.0 then
    throw (.parameter "tol" (.float x) "a finite number >= 0" (some "stall"))
  return ⟨.stall n x, bound⟩

def ofTimeLimit (seconds bound : Value) : Except Error (Policy σ Float) := do
  let x ← seconds.toFloat
  if !x.isFinite || x ≤ 0.0 then
    throw (.parameter "seconds" (.float x) "a positive finite number" (some "time"))
  return ⟨.timeLimit x, ← Policy.bound bound "time"⟩

/-- An argument of a policy: a predicate, or a value. -/
inductive Argument (σ : Type) where
  | predicate (holds : View Float → Call σ Value) (shown : Value)
  | value (v : Value)

/-- The argument as a value; one that is not given has a default. -/
private def Argument.orElse (default : Value) : Option (Argument σ) → Value
  | some (predicate _ shown) => shown
  | some (value v) => v
  | none => default

/-- The parameters of a kind of policy, of which the first is required. -/
private def parametersOf (kind : String) : List String :=
  if kind == "MaxGenerations" then ["n"]
  else if kind == "FitnessThreshold" then ["target", "max_generations"]
  else if kind == "Predicate" then ["fn", "max_generations"]
  else if kind == "NoImprovement" then ["n_generations", "tol", "max_generations"]
  else if kind == "TimeLimit" then ["seconds", "max_generations"]
  else []

/-- A policy of a kind from arguments given by place and by name. -/
def ofArguments (kind : String) (args : List (Argument σ)) (named : List (String × Argument σ)) :
    Except Error (Policy σ Float) := do
  match ← Arguments.bind (parametersOf kind) 1 args named with
  | [n] => ofGenerations (Argument.orElse .absent n)
  | [n, tol, m] =>
    ofStall (Argument.orElse .absent n) (Argument.orElse (.float 0.0) tol)
      (Argument.orElse .absent m)
  | [first, m] =>
    let v := Argument.orElse .absent first
    if kind == "FitnessThreshold" then
      ofThreshold v (Argument.orElse (.int safetyGenerations) m)
    else if kind == "TimeLimit" then ofTimeLimit v (Argument.orElse .absent m)
    else
      let holds := match first with
        | some (.predicate holds _) => some holds
        | _ => none
      ofPredicate holds v (Argument.orElse .absent m)
  | _ => throw (.fault .type)

/-- What a policy is asked for by: a ready one, a predicate, or a value. -/
inductive Source (σ : Type) where
  | ready (p : Policy σ Float)
  | predicate (holds : View Float → Call σ Value)
  | value (v : Value)

/-- The policy meant by a pair of a kind and a value. -/
private def ofPair (pair kind v : Value) : Except Error (Policy σ Float) :=
  let unknown : Except Error (Policy σ Float) :=
    .error (.termination pair (some ("Unknown type '" ++ kind.plain ++ "'.")))
  match kind with
  | .text name =>
    if name == "max_gen" || name == "n_gen" then ofGenerations v
    else if name == "min_fit" then ofThreshold v (.int safetyGenerations)
    else if name == "time" then ofTimeLimit v .absent
    else if name == "stall" then ofStall v (.float 0.0) .absent
    else unknown
  | _ => unknown

def ofSource : Source σ → Except Error (Policy σ Float)
  | .ready p => .ok p
  | .predicate holds => .ok ⟨.predicate holds, none⟩
  | .value .absent => ofGenerations (.int defaultGenerations)
  | .value (.int n) => ofGenerations (.int n)
  | .value (.tuple [kind, v]) => ofPair (.tuple [kind, v]) kind v
  | .value (.tuple items) =>
    .error (.termination (.tuple items) (some "Expected a (type, value) pair."))
  | .value v => .error (.termination v none)

end BoxSearch.Policy
