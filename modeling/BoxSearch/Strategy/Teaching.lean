import BoxSearch.Run.Search
import BoxSearch.Settings.Teaching

/-!
The teaching strategy.

A generation has two phases. First every learner moves by a random share of the difference between
a teacher, the best point of the run or a member of the front, and once or twice the mean of the
class. Then every learner moves towards a random partner that dominates it, or away from one that
does not. After each phase the candidates are evaluated in one batch, and each takes the place of
its learner unless it is worse.
-/

namespace BoxSearch.Teaching

variable {α : Type} [Scalar α]

/-- The candidate that a teacher leads to; the mean of the class counts `factor` times. -/
def taught (x teacher mean draws : Row α) (factor : Nat) : Row α :=
  Row.tabulate x.size fun j =>
    x.gene j + draws.gene j * (teacher.gene j - Scalar.ofNat factor * mean.gene j)

def towards (x y draws : Row α) : Row α :=
  Row.tabulate x.size fun j => x.gene j + draws.gene j * (y.gene j - x.gene j)

def awayFrom (x y draws : Row α) : Row α :=
  Row.tabulate x.size fun j => x.gene j + draws.gene j * (x.gene j - y.gene j)

variable {σ P : Type}

/-- The candidate of one learner in the first phase, from its own stream. -/
def teach (run : Run α P) (mean : Row α) (i : Nat) : Draw (Row α) := do
  let teacher ← run.sampleLeader
  let factor := 1 + (← Draw.index 2)
  let draws ← Draw.times run.dim Draw.unit
  return taught (run.X.row i) teacher mean (draws.map Scalar.ofFloat) factor

/-- The candidate of one learner in the second phase, from its own stream. -/
def learn (run : Run α P) (F : Rows α) (i : Nat) : Draw (Row α) := do
  let partner := (← Draw.distinct run.popSize 1 (some i)).getD 0 i
  let draws ← Draw.times run.dim Draw.unit
  let move := if Dominance.dominates (F.row partner) (F.row i) then towards else awayFrom
  return move (run.X.row i) (run.X.row partner) (draws.map Scalar.ofFloat)

def teacherPhase (evaluator : Evaluator σ α P) : Search σ α P Unit := do
  let run ← Search.current
  let candidates ← Search.perIndividual (teach run (Rows.meanRow run.dim run.X))
  Search.evaluateAccept evaluator (run.bounds.clipRows candidates)

def learnerPhase (evaluator : Evaluator σ α P) : Search σ α P Unit := do
  let run ← Search.current
  let F ← Search.ofExcept run.fitness
  let candidates ← Search.perIndividual (learn run F)
  Search.evaluateAccept evaluator (run.bounds.clipRows candidates)

def step (evaluator : Evaluator σ α P) : Search σ α P Unit := do
  teacherPhase evaluator
  learnerPhase evaluator

end BoxSearch.Teaching
