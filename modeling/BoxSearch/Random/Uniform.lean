import BoxSearch.Random.Generator

/-!
Uniform whole numbers, shuffles and selections from a stream of words.

Every function takes the generator and returns it moved on. Where a draw may be rejected and
repeated, a try succeeds with a probability above one half, and `tries` bounds the number of
repetitions; running out of them has a probability below `2 ^ -4000`.
-/

namespace BoxSearch.Random

/-- The number of times a rejected draw is repeated. -/
def tries : Nat := 4096

def drawUntil {β : Type} (accepts : β → Bool) (draw : Generator → β × Generator) :
    Nat → Generator → β × Generator
  | 0, g => draw g
  | fuel + 1, g =>
    let (x, next) := draw g
    if accepts x then (x, next) else drawUntil accepts draw fuel next

/-- A number of `[0, n)` from draws of `[0, size)`: the upper digit of the product with `n` in
base `size`, where products whose lower digit would favour some results are rejected. -/
def scaled (size n : Nat) (draw : Generator → Nat × Generator) (g : Generator) :
    Nat × Generator :=
  let surplus := (size - n) % n
  let (product, next) := drawUntil (fun m => surplus ≤ m % size)
    (fun g => let (w, next) := draw g; (w * n, next)) tries g
  (product / size, next)

private def half (g : Generator) : Nat × Generator :=
  let (w, next) := g.halfWord
  (w.toNat, next)

private def whole (g : Generator) : Nat × Generator :=
  let (w, next) := g.word
  (w.toNat, next)

/-- A uniform number of `[0, top]`. A half word is enough for a `top` below `2 ^ 32`, and nothing
is drawn for zero. -/
def upTo (top : Nat) (g : Generator) : Nat × Generator :=
  if top == 0 then (0, g)
  else if top < UInt32.size - 1 then scaled UInt32.size (top + 1) half g
  else if top == UInt32.size - 1 then half g
  else scaled UInt64.size (top + 1) whole g

/-- A uniform number of `[0, top]` by masking: draws of as many bits as `top` has are repeated
until one is not above `top`. -/
def masked (top : Nat) (g : Generator) : Nat × Generator :=
  if top == 0 then (0, g)
  else
    let size := 1 <<< (top.log2 + 1)
    let draw (g : Generator) : Nat × Generator :=
      let (w, next) := if top < UInt32.size then half g else whole g
      (w % size, next)
    drawUntil (· ≤ top) draw tries g

/-- The places `count - 1` down to `1`, as a shuffle visits them. -/
def descending (count : Nat) : List Nat :=
  ((List.range count).drop 1).reverse

/-- Swaps each place from the last one down with a random place not above it. -/
def shuffleWith {β : Type} (place : Nat → Generator → Nat × Generator) (xs : Array β)
    (g : Generator) : Array β × Generator :=
  (descending xs.size).foldl (fun (xs, g) i =>
    let (j, next) := place i g
    (xs.swapIfInBounds i j, next)) (xs, g)

def shuffle {β : Type} (xs : Array β) (g : Generator) : Array β × Generator :=
  shuffleWith masked xs g

/-- The last `count` entries of `0 … pool - 1` after the tail has been shuffled. -/
def selectTail (pool count : Nat) (g : Generator) : Array Nat × Generator :=
  let places := (descending pool).filter (max (pool - count) 1 ≤ ·)
  let (xs, g) := places.foldl (fun (xs, g) i =>
    let (j, next) := upTo i g
    (xs.swapIfInBounds i j, next)) (Array.range pool, g)
  (xs.extract (pool - count) pool, g)

/-- One more element of a growing selection: a draw of `[0, top]`, or `top` itself if the drawn
number is chosen already. -/
def selectNext (chosen : Array Nat × Generator) (top : Nat) : Array Nat × Generator :=
  let (xs, g) := chosen
  let (v, next) := upTo top g
  (xs.push (if xs.contains v then top else v), next)

/-- A selection that grows by one number at a time and is shuffled at the end. -/
def selectFew (pool count : Nat) (g : Generator) : Array Nat × Generator :=
  let (xs, g) := ((List.range count).map (pool - count + ·)).foldl selectNext (#[], g)
  shuffleWith upTo xs g

/-- `count` distinct numbers of `[0, pool)` in random order, for `count ≤ pool`. A large part of a
large pool is taken from the tail of a shuffle; otherwise the selection grows by one number at a
time and is shuffled at the end. -/
def select (pool count : Nat) (g : Generator) : Array Nat × Generator :=
  if 10000 < pool && pool / 50 < count then selectTail pool count g
  else selectFew pool count g

end BoxSearch.Random
