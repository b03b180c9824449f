import BoxSearch.Run.Search
import BoxSearch.Settings.Firefly

/-!
The firefly strategy.

A firefly is brighter than another if its fitness dominates the other's. Every firefly builds one
candidate per brighter firefly, a step towards it and a random step; one that nobody outshines
builds a single random step. All candidates are evaluated in one batch. Each firefly then walks
through its own candidates in order and keeps the last one that is not worse than what it has.
-/

namespace BoxSearch.Firefly

variable {α : Type} [Scalar α]

/-- The random step of a generation, as a part of the box. -/
def stepScale (s : Settings) (generation : Nat) : α :=
  Scalar.ofFloat s.alpha * Scalar.power (Scalar.ofFloat s.alphaDecay) (Scalar.ofNat generation)

/-- A random step: up to half of `scale` times the box in either direction. -/
def randomStep (scale : α) (span draws : Row α) : Row α :=
  Row.tabulate span.size fun j =>
    scale * span.gene j * (draws.gene j - Scalar.ofFloat 0.5)

def squaredDistance (x y : Row α) : α :=
  Scalar.total (Row.tabulate x.size fun j => (y.gene j - x.gene j) * (y.gene j - x.gene j))

/-- How much of the way to a brighter firefly is gone: less, the farther away it is. -/
def attraction (s : Settings) (x y : Row α) : α :=
  Scalar.ofFloat s.beta0 * Scalar.exp (-(Scalar.ofFloat s.gamma) * squaredDistance x y)

/-- The candidate of the firefly at `x`, on its own. -/
def stray (x step : Row α) : Row α :=
  Row.tabulate x.size fun j => x.gene j + step.gene j

/-- The candidate of the firefly at `x`, attracted by the one at `y`. -/
def attracted (s : Settings) (x y step : Row α) : Row α :=
  let beta := attraction s x y
  Row.tabulate x.size fun j => x.gene j + beta * (y.gene j - x.gene j) + step.gene j

/-- The fireflies brighter than one of fitness `f`. -/
def brighter (F : Rows α) (f : Row α) : List Nat :=
  let mask := Dominance.dominatesRows F f
  (List.range mask.size).filter fun j => mask.getD j false

variable {σ P : Type}

/-- The candidates of one firefly, from its own stream. -/
def candidates (s : Settings) (run : Run α P) (F : Rows α) (i : Nat) : Draw (List (Row α)) := do
  let span := run.bounds.span
  let scale : α := stepScale s run.generation
  let x := run.X.row i
  let drawStep : Draw (Row α) := do
    return randomStep scale span ((← Draw.times run.dim Draw.unit).map Scalar.ofFloat)
  match brighter F (F.row i) with
  | [] => return [stray x (← drawStep)]
  | others => others.mapM fun j => return attracted s x (run.X.row j) (← drawStep)

/-- What is left of a walk through candidates: the last one not worse than what came before it. -/
def walk (start : Row α) (candidates : List (Row α × Row α)) : Option (Row α × Row α) :=
  (candidates.foldl (fun (held : Row α × Option (Row α × Row α)) c =>
    if Dominance.notWorse c.2 held.1 then (c.2, some c) else held) (start, none)).2

/-- Every firefly goes where its walk ends. The candidates of all fireflies come one after another;
`counts` tells how many there are of each. -/
def settleAll (F C FC : Rows α) (counts : List Nat) (run : Run α P) : Run α P :=
  (counts.zipIdx.foldl (fun (acc : Run α P × Nat) (count, i) =>
    let own := (List.range count).map fun k => (C.row (acc.2 + k), FC.row (acc.2 + k))
    match walk (F.row i) own with
    | some (x, f) => (acc.1.overwrite [i] #[x] #[f], acc.2 + count)
    | none => (acc.1, acc.2 + count)) (run, 0)).1

def step (s : Settings) (evaluator : Evaluator σ α P) : Search σ α P Unit := do
  let start ← Search.current
  let F ← Search.ofExcept start.fitness
  let drawn ← Search.perIndividual (candidates s start F)
  let C := start.bounds.clipRows (drawn.toList.flatMap id).toArray
  let FC ← Search.evaluate evaluator C
  Search.update (settleAll F C FC (drawn.toList.map List.length))

end BoxSearch.Firefly
