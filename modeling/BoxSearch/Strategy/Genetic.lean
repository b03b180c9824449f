import BoxSearch.Run.Search
import BoxSearch.Settings.Genetic
import BoxSearch.Variation

/-!
The genetic strategy.

In every generation the driver's stream pairs the population off at random. A pair has two
children, crossed and mutated copies of its members; a pair whose children are the same as
themselves sits the generation out. All children are evaluated in one batch and then compete with
their own parents: the better child first, each takes the place of the parent that is weaker at
that moment, unless it is worse.
-/

namespace BoxSearch.Genetic

variable {α : Type} [Scalar α]

/-- The first of two is the weaker one: it is dominated, or, if neither is, has the larger sum. -/
def firstWeaker (f g : Row α) : Bool :=
  if Dominance.dominates f g then false
  else if Dominance.dominates g f then true
  else decide (Scalar.total g < Scalar.total f)

/-- Draws for the crossover that the settings name, and the two children. -/
def cross (s : Settings) (bounds : Bounds α) (p q : Row α) : Draw (Row α × Row α) :=
  match s.crossover with
  | .blend => Variation.drawBlend bounds.lower bounds.upper (Scalar.ofFloat s.alpha) p q
  | .simulatedBinary =>
    Variation.drawSimulatedBinary bounds.lower bounds.upper (Scalar.ofFloat s.eta)
      (Scalar.ofFloat 0.5) p q

/-- Draws for the mutation that the settings name, and the mutant. -/
def mutate (s : Settings) (bounds : Bounds α) (x : Row α) : Draw (Row α) :=
  match s.mutation with
  | .gaussian =>
    Variation.drawGaussian bounds.lower bounds.upper (Scalar.ofFloat s.mutate)
      (Scalar.ofFloat s.sigma) x
  | .polynomial =>
    Variation.drawPolynomial bounds.lower bounds.upper (Scalar.ofFloat s.mutate)
      (Scalar.ofFloat s.etaMutation) x

/-- The draws of the first parent: crossover of the pair, if the pair crosses at all, and mutation
of the first child. The second child is yet to be mutated. -/
def firstDraws (s : Settings) (bounds : Bounds α) (p q : Row α) : Draw (Row α × Row α) := do
  let (c, d) ← if ← Draw.chance s.cross then cross s bounds p q else pure (p, q)
  return (← mutate s bounds c, d)

/-- Two parents by their places, and their children. -/
structure Family (α : Type) where
  first : Nat
  second : Nat
  firstChild : Row α
  secondChild : Row α

/-- The children differ from the parents. -/
def Family.isNew (X : Rows α) (f : Family α) : Bool :=
  !(f.firstChild.same (X.row f.first) && f.secondChild.same (X.row f.second))

variable {σ P : Type}

/-- The children of a pair. Every parent's stream serves its own child; the first one's also
decides on the crossover. -/
def breed (s : Settings) (a b : Nat) : Search σ α P (Family α) := do
  let run ← Search.current
  let (c, d) ← Search.draw (.individual a) (firstDraws s run.bounds (run.X.row a) (run.X.row b))
  let d ← Search.draw (.individual b) (mutate s run.bounds d)
  return ⟨a, b, c, d⟩

/-- Pairs in the order of a list; the last one is left over if the number is odd. -/
def pairs : List Nat → List (Nat × Nat)
  | a :: b :: rest => (a, b) :: pairs rest
  | _ => []

/-- One child against its parents: it takes the place of the weaker one, unless it is worse. -/
def challenge (a b : Nat) (run : Run α P) (child : Row α × Row α) : Run α P :=
  match run.F with
  | none => run
  | some F =>
    let loser := if firstWeaker (F.row a) (F.row b) then a else b
    if Dominance.notWorse child.2 (F.row loser) then
      run.overwrite [loser] #[child.1] #[child.2]
    else run

/-- The two children of a pair against their parents, the better child first. -/
def compete (run : Run α P) (a b : Nat) (c d : Row α × Row α) : Run α P :=
  let children := if Dominance.notWorse c.2 d.2 then [c, d] else [d, c]
  children.foldl (challenge a b) run

/-- All families compete, given the children in the order of the families, with their fitness. -/
def competeAll (families : List (Family α)) (C FC : Rows α) (run : Run α P) : Run α P :=
  families.zipIdx.foldl (fun run (family, k) =>
    compete run family.first family.second (C.row (2 * k), FC.row (2 * k))
      (C.row (2 * k + 1), FC.row (2 * k + 1))) run

def step (s : Settings) (evaluator : Evaluator σ α P) : Search σ α P Unit := do
  let start ← Search.current
  let order ← Search.draw .driver (Draw.shuffled (Array.range start.popSize))
  let families ← (pairs order.toList).mapM fun (a, b) => breed s a b
  let families := families.filter (Family.isNew start.X)
  if families.isEmpty then Search.log (.noChildren start.generation)
  else
    let children := families.flatMap fun family => [family.firstChild, family.secondChild]
    let C := start.bounds.clipRows children.toArray
    let FC ← Search.evaluate evaluator C
    let _ ← Search.ofExcept (← Search.current).fitness
    Search.update (competeAll families C FC)

end BoxSearch.Genetic
