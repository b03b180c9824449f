import BoxSearch.Run.Notes
import BoxSearch.Run.Search
import BoxSearch.Settings.Swarm

/-!
The particle swarm.

Every particle has a velocity, pulled towards the best place the particle has been to and towards
a leader: the best point of the run or, with several objectives, the winner of a tournament on the
front. Particles move without being evaluated; the fitness found for them at the end of a
generation is folded into their memory at the start of the next one.
-/

namespace BoxSearch.Swarm

variable {α : Type} [Scalar α]

/-- A velocity with no component above `limit` in size. -/
def limited (limit v : Row α) : Row α :=
  Row.tabulate v.size fun j => Scalar.clamp (v.gene j) (-(limit.gene j)) (limit.gene j)

/-- The velocity of a particle at `x` after one pull: a part of the old one, and a random share of
the way to its own best place and of the way to the leader. -/
def pulled (s : Settings) (velocity x own leader toOwn toLeader : Row α) : Row α :=
  let inertia : α := Scalar.ofFloat s.inertia
  let c1 : α := Scalar.ofFloat s.c1
  let c2 : α := Scalar.ofFloat s.c2
  Row.tabulate x.size fun j =>
    inertia * velocity.gene j + c1 * toOwn.gene j * (own.gene j - x.gene j)
      + c2 * toLeader.gene j * (leader.gene j - x.gene j)

/-- The largest velocity: a part of the box. -/
def topVelocity (s : Settings) (bounds : Bounds α) : Row α :=
  bounds.span.map (Scalar.ofFloat s.vmaxFraction * ·)

/-- The best places after a look at the fitness of the population: a particle that is not worse
than its best place has found a new one. -/
def remember (X F bestX bestF : Rows α) : Rows α × Rows α :=
  let better := Dominance.notWorseRows F bestF
  let choose (new old : Rows α) : Rows α :=
    (Array.range old.size).map fun i => if better.getD i false then new.row i else old.row i
  (choose X bestX, choose F bestF)

variable {σ P : Type}

/-- A swarm at rest, for which the population holds the best places known. The fitness must be
known; the rest is set in any case. -/
def prepare : Search σ α P Unit := do
  Search.update fun run =>
    let still : Row α := Row.tabulate run.dim fun _ => Scalar.zero
    (run.remember .velocity (Array.replicate run.popSize still)).remember .bestX run.X
  let F ← Search.ofExcept (← Search.current).fitness
  Search.update fun run => run.remember .bestF F

/-- Folds the fitness of the population into the best places. -/
def updateBests : Search σ α P Unit := do
  let run ← Search.current
  let bestX ← Search.ofExcept (run.remembered .bestX)
  let bestF ← Search.ofExcept (run.remembered .bestF)
  let F ← Search.ofExcept run.fitness
  if (F.row 0).size != (bestF.row 0).size then throw (.fault .value)
  let (bestX, bestF) := remember run.X F bestX bestF
  Search.update fun run => (run.remember .bestX bestX).remember .bestF bestF

/-- The leader that one particle follows. -/
def leader (run : Run α P) : Draw (Row α) :=
  match run.front? with
  | some front =>
    if front.members.isEmpty then MonadExcept.ofExcept run.bestX else front.tournament
  | none => MonadExcept.ofExcept run.bestX

/-- The new velocity of one particle, from its own stream. -/
def accelerate (s : Settings) (run : Run α P) (velocity bestX : Rows α) (i : Nat) :
    Draw (Row α) := do
  let leader ← leader run
  let toOwn ← Draw.times run.dim Draw.unit
  let toLeader ← Draw.times run.dim Draw.unit
  let x := run.X.row i
  return limited (topVelocity s run.bounds)
    (pulled s (velocity.row i) x (bestX.row i) leader
      (toOwn.map Scalar.ofFloat) (toLeader.map Scalar.ofFloat))

/-- The position after one step with the given velocity. -/
def moved (x velocity : Row α) : Row α :=
  Row.tabulate x.size fun j => x.gene j + velocity.gene j

def step (s : Settings) : Search σ α P Unit := do
  if !(← Search.current).remembers .velocity then prepare
  updateBests
  Search.update Run.measureFront
  let run ← Search.current
  let velocity ← Search.ofExcept (run.remembered .velocity)
  let bestX ← Search.ofExcept (run.remembered .bestX)
  if (velocity.row 0).size != run.dim || (bestX.row 0).size != run.dim then throw (.fault .value)
  let velocity ← Search.perIndividual (accelerate s run velocity bestX)
  Search.update fun run =>
    (run.remember .velocity velocity).moveAll (Array.zipWith moved run.X velocity)

end BoxSearch.Swarm
