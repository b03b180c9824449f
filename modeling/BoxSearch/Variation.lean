import BoxSearch.Bounds.Basic
import BoxSearch.Random.Draw

/-!
Variation of parameter vectors: two crossovers and two mutations.

Each operator first draws all the numbers it may need, in a fixed order and whatever the vectors
are, and then computes from them. So the state of a stream after an operator depends on the
dimension alone.
-/

namespace BoxSearch.Variation

variable {α : Type} [Scalar α]

open Scalar

/-- Differences up to this size count as none. -/
def negligible : α := ofFloat 1.0e-14

/-- A power with one exponent for all genes: four exponents have forms of their own. -/
def sharedPower (x exponent : α) : α :=
  if exponent == ofFloat 0.5 then sqrt x
  else if exponent == one then x
  else if exponent == ofFloat 2.0 then x * x
  else if exponent == -(one : α) then one / x
  else power x exponent

/-- The spread factor of simulated binary crossover: `beta` says how far the box extends beyond the
parents, `u` is the draw. -/
def spreadFactor (eta beta u : α) : α :=
  let two : α := ofFloat 2.0
  let inverse := one / (eta + one)
  let beta := larger beta negligible
  let reach := larger (two - sharedPower beta (-(eta + one))) negligible
  if u ≤ one / reach then sharedPower (u * reach) inverse
  else sharedPower (one / (two - u * reach)) inverse

/-- The draws of simulated binary crossover: which genes take part, the spread, and which children
swap a gene. -/
structure CrossDraws (α : Type) where
  takes : Row α
  spread : Row α
  swap : Row α

/-- Simulated binary crossover of two parents in a box, from its draws. A gene takes part with
probability `share`, provided the parents differ in it. -/
def simulatedBinary (lower upper : Row α) (eta share : α) (draws : CrossDraws α) (p q : Row α) :
    Row α × Row α :=
  let n := p.size
  let half : α := ofFloat 0.5
  let gene (j : Nat) : α × α :=
    let low := smaller (p.gene j) (q.gene j)
    let high := larger (p.gene j) (q.gene j)
    let gap := high - low
    if negligible < gap && draws.takes.gene j ≤ share then
      let safe := larger gap negligible
      let u := draws.spread.gene j
      let below := spreadFactor eta (one + ofFloat 2.0 * (low - lower.gene j) / safe) u
      let above := spreadFactor eta (one + ofFloat 2.0 * (upper.gene j - high) / safe) u
      let c := clamp (half * ((low + high) - below * gap)) (lower.gene j) (upper.gene j)
      let d := clamp (half * ((low + high) + above * gap)) (lower.gene j) (upper.gene j)
      if draws.swap.gene j ≤ half then (d, c) else (c, d)
    else (p.gene j, q.gene j)
  (Row.tabulate n fun j => (gene j).1, Row.tabulate n fun j => (gene j).2)

/-- Blend crossover of two parents, from one row of draws per child: each gene is uniform on the
parents' interval widened by `alpha` of its length on both sides. -/
def blend (lower upper : Row α) (alpha : α) (u v p q : Row α) : Row α × Row α :=
  let child (u : Row α) : Row α := Row.tabulate p.size fun j =>
    let low := smaller (p.gene j) (q.gene j)
    let high := larger (p.gene j) (q.gene j)
    let margin := alpha * (high - low)
    let span := (high + margin) - (low - margin)
    clamp ((low - margin) + u.gene j * span) (lower.gene j) (upper.gene j)
  (child u, child v)

/-- One gene moved into its interval; a gene that equals a border stays as it is. -/
def hold (x low high : α) : α :=
  let raised := if x < low then low else x
  if high < raised then high else raised

/-- The relative step of polynomial mutation. `below` and `above` are the distances to the borders
as parts of the interval, `u` is the draw. -/
def polynomialStep (eta below above u : α) : α :=
  let half : α := ofFloat 0.5
  let two : α := ofFloat 2.0
  let inverse := one / (eta + one)
  if u ≤ half then
    let reach := one - below
    power (two * u + (one - two * u) * power reach (eta + one)) inverse - one
  else
    let reach := one - above
    one - power (two * (one - u) + two * (u - half) * power reach (eta + one)) inverse

/-- Polynomial mutation from its draws: a gene changes where its entry of `fires` is below `rate`;
an interval of no length is left alone. -/
def polynomial (lower upper : Row α) (rate eta : α) (fires u x : Row α) : Row α :=
  Row.tabulate x.size fun j =>
    let low := lower.gene j
    let high := upper.gene j
    if fires.gene j < rate && !decide (high ≤ low) then
      let span := high - low
      let step := polynomialStep eta ((x.gene j - low) / span) ((high - x.gene j) / span) (u.gene j)
      hold (x.gene j + step * span) low high
    else x.gene j

/-- Gaussian mutation from its draws: `sigma` of the interval times the noise is added where the
entry of `fires` is below `rate`, and the whole vector is moved into the box. -/
def gaussian (lower upper : Row α) (rate sigma : α) (fires noise x : Row α) : Row α :=
  Row.tabulate x.size fun j =>
    let moved :=
      if fires.gene j < rate then
        x.gene j + noise.gene j * sigma * (upper.gene j - lower.gene j)
      else x.gene j
    clamp moved (lower.gene j) (upper.gene j)

section Draws

variable {m : Type → Type} [Monad m] [RandomSource m]

def uniformRow (n : Nat) : m (Row α) := do
  return (← Draw.times n (RandomSource.unit : m Float)).map ofFloat

/-- A row of normal draws of mean zero and spread one. -/
def normalRow (n : Nat) : m (Row α) := do
  return (← Draw.times n (RandomSource.normal 0.0 1.0 : m Float)).map ofFloat

/-- Draws for simulated binary crossover, and the two children. -/
def drawSimulatedBinary (lower upper : Row α) (eta share : α) (p q : Row α) :
    m (Row α × Row α) := do
  let takes ← uniformRow p.size
  let spread ← uniformRow p.size
  let swap ← uniformRow p.size
  return simulatedBinary lower upper eta share ⟨takes, spread, swap⟩ p q

/-- Draws for blend crossover, and the two children. -/
def drawBlend (lower upper : Row α) (alpha : α) (p q : Row α) : m (Row α × Row α) := do
  let u ← uniformRow p.size
  let v ← uniformRow p.size
  return blend lower upper alpha u v p q

/-- Draws for polynomial mutation, and the mutant. -/
def drawPolynomial (lower upper : Row α) (rate eta : α) (x : Row α) : m (Row α) := do
  let fires ← uniformRow x.size
  let u ← uniformRow x.size
  return polynomial lower upper rate eta fires u x

/-- Draws for gaussian mutation, and the mutant. -/
def drawGaussian (lower upper : Row α) (rate sigma : α) (x : Row α) : m (Row α) := do
  let fires ← uniformRow x.size
  let noise ← normalRow x.size
  return gaussian lower upper rate sigma fires noise x

end Draws

end BoxSearch.Variation
