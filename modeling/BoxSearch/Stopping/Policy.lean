import BoxSearch.Session
import BoxSearch.Stopping.Stall

/-!
When a run stops.

A policy is asked once after every generation. It stops the run when its rule says so, and in any
case once a bound on the number of generations is reached, if there is one. What a rule has to
remember between two questions is kept in a `Watch`, which starts anew with every run.
-/

namespace BoxSearch

/-- The rule of a policy: never, a fitness reached, a predicate, generations without progress, or
time elapsed. -/
inductive Rule (σ α : Type) [Scalar α] where
  | never
  | threshold (target : α)
  | predicate (holds : View α → Call σ Value)
  | stall (generations : Nat) (tol : α)
  | timeLimit (seconds : α)

/-- A rule and a bound on the number of generations. -/
structure Policy (σ α : Type) [Scalar α] where
  rule : Rule σ α
  maxGenerations : Option Nat

/-- What a policy remembers: progress, and when the run started. -/
structure Watch (α : Type) where
  stall : Stall α
  since : Option α

namespace Watch

def fresh {α : Type} [Scalar α] : Watch α := ⟨.unmarked, none⟩

end Watch

namespace Policy

variable {σ α : Type} [Scalar α]

/-- A threshold compares single numbers, so that it has no use for several objectives. An unknown
number of objectives passes. -/
def checkObjectives (p : Policy σ α) (nObj : Option Int) : Except Error Unit :=
  match p.rule, nObj with
  | .threshold _, some n =>
    if 1 < n then .error (.configuration (.severalObjectives n)) else .ok ()
  | _, _ => .ok ()

/-- The start of a run, at the view of its first population. -/
def start (p : Policy σ α) (clock : Call σ α) (view : View α) : Act σ (Watch α) := do
  match p.rule with
  | .stall _ _ => return ⟨.start view, none⟩
  | .timeLimit _ => return ⟨.unmarked, some (← Act.call clock)⟩
  | .never | .threshold _ | .predicate _ =>
    match p.checkObjectives view.nObj with
    | .ok () => return .fresh
    | .error e => throw e

/-- The best fitness has reached a target. No fitness has not. -/
def reached (target : α) : Option (Best α) → Except Error Bool
  | none => .ok false
  | some (.number f) => .ok (decide (f ≤ target))
  | some (.vector _) | some .other => .error (.fault .type)

def ruleHolds (p : Policy σ α) (clock : Call σ α) (watch : Watch α) (view : View α) :
    Act σ (Bool × Watch α) := do
  match p.rule with
  | .never => return (false, watch)
  | .threshold target =>
    return (← MonadExcept.ofExcept (reached target view.bestF), watch)
  | .predicate holds => return ((← Act.call (holds view)).truthy, watch)
  | .stall generations tol =>
    let stall ← MonadExcept.ofExcept (watch.stall.observe tol view)
    return (decide (generations ≤ stall.stalled), { watch with stall })
  | .timeLimit seconds =>
    let since ← match watch.since with
      | some t => pure t
      | none => Act.call clock
    let elapsed := (← Act.call clock) - since
    return (decide (seconds ≤ elapsed), { watch with since := some since })

/-- The bound on the number of generations is reached. -/
def boundReached (p : Policy σ α) (generation : Int) : Bool :=
  p.maxGenerations.any fun m => decide ((m : Int) ≤ generation)

/-- The run stops after the generation seen. -/
def stops (p : Policy σ α) (clock : Call σ α) (watch : Watch α) (view : View α) :
    Act σ (Bool × Watch α) := do
  let (holds, watch) ← p.ruleHolds clock watch view
  return (holds || p.boundReached view.generation, watch)

end Policy

end BoxSearch
