import BoxSearch.Random.Uniform
import BoxSearch.Random.Ziggurat
import BoxSearch.Random.LogOnePlus

/-!
Normally distributed numbers by the ziggurat.

A word selects a layer, a sign and a step across the layer. Most steps lie under the curve and are
returned at once. In the bottom layer the others stand for the tail, which is drawn from two
exponential numbers; in any other layer the point is kept if it lies below the curve.
-/

namespace BoxSearch.Random

/-- One try at the tail: a distance beyond its start, and whether it is kept. -/
private def tailTry (g : Generator) : (Float × Bool) × Generator :=
  let (u, g) := g.unit
  let (v, g) := g.unit
  let x := -Ziggurat.tailScale * logOnePlus (-u)
  let y := -(logOnePlus (-v))
  ((x, decide (x * x < y + y)), g)

/-- One try at a normal number; nothing if the point lies above the curve. -/
private def normalTry (g : Generator) : Option Float × Generator :=
  let (w, g) := g.word
  let layer := (w &&& 0xff).toNat
  let rest := w >>> 8
  let negative := (rest &&& 1) == 1
  let step := (rest >>> 1) &&& 0x000fffffffffffff
  let distance := step.toFloat * Ziggurat.width layer
  let x := if negative then -distance else distance
  if step < Ziggurat.inner layer then (some x, g)
  else if layer == 0 then
    let ((beyond, _), g) := drawUntil (·.2) tailTry tries g
    let t := Ziggurat.tailStart + beyond
    (some (if (step >>> 8) &&& 1 == 1 then -t else t), g)
  else
    let (u, g) := g.unit
    let height := (Ziggurat.height (layer - 1) - Ziggurat.height layer) * u + Ziggurat.height layer
    (if height < Float.exp (-0.5 * x * x) then some x else none, g)

/-- A normal number of mean zero and spread one. -/
def gauss (g : Generator) : Float × Generator :=
  let (x?, g) := drawUntil Option.isSome normalTry tries g
  (x?.getD 0.0, g)

end BoxSearch.Random
