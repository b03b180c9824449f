import BoxSearch.Settings.Family
import BoxSearch.Strategy.Genetic
import BoxSearch.Strategy.Differential
import BoxSearch.Strategy.Swarm
import BoxSearch.Strategy.Firefly
import BoxSearch.Strategy.Teaching

/-!
Strategies at work.

Settings decide which strategy runs. A generation is one step of it, after which whatever has
become stale is evaluated and everything evaluated is folded into the tracker.
-/

namespace BoxSearch.Strategy

variable {σ α P : Type} [Scalar α]

/-- Prepares a run whose first population has been evaluated. -/
def prepare (s : Settings) : Search σ α P Unit :=
  match s with
  | .swarm _ => Swarm.prepare
  | .genetic _ | .differential _ | .firefly _ | .teaching _ => pure ()

def step (s : Settings) (evaluator : Evaluator σ α P) : Search σ α P Unit :=
  match s with
  | .genetic s => Genetic.step s evaluator
  | .differential s => Differential.step s evaluator
  | .swarm s => Swarm.step s
  | .firefly s => Firefly.step s evaluator
  | .teaching _ => Teaching.step evaluator

def generation (s : Settings) (evaluator : Evaluator σ α P) : Search σ α P Unit := do
  step s evaluator
  let _ ← Search.evaluateAll evaluator
  Search.updateBest
  Search.update Run.completeGeneration

end BoxSearch.Strategy
