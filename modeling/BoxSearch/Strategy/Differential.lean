import BoxSearch.Run.Search
import BoxSearch.Settings.Differential

/-!
Differential evolution.

Every individual builds a trial: a mutant from donors, and for some formulas from a good point,
with some of its own genes kept. All trials are built from the same population, evaluated in one
batch, and each takes the place of its individual unless it is worse.
-/

namespace BoxSearch.Differential

variable {α : Type} [Scalar α]

/-- Donors of a mutant, gene by gene; only the formulas with a `best` in them look at it. -/
def combine (mutant : Mutant) (f x best : α) (v : Nat → α) : α :=
  match mutant with
  | .rand1 => v 0 + f * (v 1 - v 2)
  | .rand2 => v 4 + f * (v 0 + v 1 - v 2 - v 3)
  | .best1 => best + f * (v 0 - v 1)
  | .currentToBest1 => x + f * (best - x + v 0 - v 1)
  | .best2 => best + f * (v 0 + v 1 - v 2 - v 3)

def Mutant.usesBest : Mutant → Bool
  | rand1 | rand2 => false
  | best1 | currentToBest1 | best2 => true

/-- The mutant of `x` from a good point and the donors. -/
def mutate (s : Settings) (x best : Row α) (donors : Rows α) : Row α :=
  Row.tabulate x.size fun j =>
    combine s.mutant (Scalar.ofFloat s.f) (x.gene j) (best.gene j) fun k => (donors.row k).gene j

/-- The length of a run of genes: it grows by one for every draw below `rate`, up to `limit` more. -/
def runLength (rate : Float) : Nat → Draw Nat
  | 0 => return 1
  | limit + 1 => do
    if ← Draw.chance rate then return (← runLength rate limit) + 1 else return 1

/-- The gene is one of `length` genes from `start` on, the first gene following the last. -/
def inRun (dim start length j : Nat) : Bool :=
  (List.range length).any fun k => (start + k) % dim == j

def drawTakes (s : Settings) (dim : Nat) : Draw (Nat → Bool) := do
  match s.crossover with
  | .exponential =>
    let start ← Draw.index dim
    let length ← runLength s.cross (dim - 1)
    return inRun dim start length
  | .binomial =>
    let forced ← Draw.index dim
    let draws ← Draw.times dim Draw.unit
    return fun j => j == forced || decide (draws.getD j 0.0 < s.cross)

/-- The trial with some genes of the mutant and the others of the target. -/
def crossed (takes : Nat → Bool) (target mutant : Row α) : Row α :=
  Row.tabulate target.size fun j => if takes j then mutant.gene j else target.gene j

variable {σ P : Type}

/-- The trial of one individual, from its own stream. -/
def trial (s : Settings) (run : Run α P) (i : Nat) : Draw (Row α) := do
  let donors ← Draw.distinct run.popSize s.mutant.donors (some i)
  let best ← if s.mutant.usesBest then run.sampleLeader else pure #[]
  let x := run.X.row i
  let mutant := mutate s x best (donors.map run.X.row)
  return crossed (← drawTakes s run.dim) x mutant

def step (s : Settings) (evaluator : Evaluator σ α P) : Search σ α P Unit := do
  let start ← Search.current
  let trials ← Search.perIndividual (trial s start)
  let trials := start.bounds.clipRows trials
  Search.evaluateAccept evaluator trials

end BoxSearch.Differential
