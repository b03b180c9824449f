import BoxSearch.Value.Number
import BoxSearch.Variation

/-!
Variation operators by name.

An operator is chosen by its name and shaped by numbers given by name; those left out have their
usual values. The two crossovers answer two children, the two mutations one mutant.
-/

namespace BoxSearch.Variation

variable {m : Type → Type} [Monad m] [MonadExceptOf Error m] [RandomSource m]

/-- A number by name, or its usual value. A number that has no usual value must be given. -/
private def shape (named : Record) (name : String) (usual : Option Float) : m Float :=
  match named.get? name, usual with
  | some v, _ => MonadExcept.ofExcept v.toFloat
  | none, some x => pure x
  | none, none => throw (.fault .type)

/-- Draws for the operator of a name, and what it makes of `p`, and of `q` if it takes two. -/
def drawNamed (name : String) (named : Record) (lower upper p q : Row Float) :
    m (List (Row Float)) := do
  if name == "sbx_pair" then
    let (c, d) ← drawSimulatedBinary lower upper (← shape named "eta" (some 15.0))
      (← shape named "prob_var" (some 0.5)) p q
    return [c, d]
  else if name == "blx_pair" then
    let (c, d) ← drawBlend lower upper (← shape named "alpha" (some 0.5)) p q
    return [c, d]
  else if name == "polynomial_mutation" then
    let rate ← shape named "prob" none
    return [← drawPolynomial lower upper rate (← shape named "eta" (some 20.0)) p]
  else if name == "gaussian_mutation" then
    let rate ← shape named "prob" none
    return [← drawGaussian lower upper rate (← shape named "sigma" (some 0.1)) p]
  else throw (.fault .attribute)

end BoxSearch.Variation
