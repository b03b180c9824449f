import BoxSearch.Evaluation.Backend
import BoxSearch.Fitness
import BoxSearch.Run.Basic
import BoxSearch.Dominance.Tensor

/-!
Steps that evaluate, and steps that may fail.

A `Search` is a computation on a run: it may draw from the run's streams, have rows evaluated,
write log entries and fail. What it changed before a failure stays changed. How rows are evaluated
is an argument, so that every step works with any objective and any way to evaluate.
-/

namespace BoxSearch

/-- A computation on a run. -/
abbrev Search (σ α P : Type) [Scalar α] := ExceptT Error (StateM (Run α P × Session σ))

/-- A way to have the rows of a batch evaluated. -/
abbrev Evaluator (σ α P : Type) := Rows α → Act σ (Block α P)

namespace Search

variable {σ α P : Type} [Scalar α] {β : Type}

def current : Search σ α P (Run α P) :=
  return (← getThe (Run α P × Session σ)).1

def update (change : Run α P → Run α P) : Search σ α P Unit :=
  modifyThe (Run α P × Session σ) fun s => (change s.1, s.2)

def act (act : Act σ β) : Search σ α P β :=
  ExceptT.mk fun (run, session) =>
    let (result, session) := act.run session
    (result, (run, session))

def ofExcept (result : Except Error β) : Search σ α P β :=
  MonadExcept.ofExcept result

def draw (id : StreamId) (draw : Draw β) : Search σ α P β :=
  ExceptT.mk fun (run, session) =>
    let (result, streams) := run.streams.run id draw
    (result, ({ run with streams }, session))

def log (event : Log.Event) : Search σ α P Unit :=
  act (Act.log event)

/-- Takes note of the number of objectives that an evaluation shows. The first one decides; it must
be the declared number if one was declared, and later ones must agree. -/
def registerWidth (width : Nat) : Search σ α P Unit := do
  let run ← current
  if run.tracker.isSome then
    match run.nObj with
    | some earlier =>
      if earlier != width then throw (.evaluation (.changedWidth width earlier) none)
    | none => pure ()
  else
    match run.nObj with
    | some declared =>
      if declared != width then throw (.evaluation (.declaredWidth none width declared) none)
    | none => pure ()
    update fun run => { run with nObj := some width }
    let tracker ← ofExcept (Tracker.start run.dim width run.frontLimit)
    update fun run => { run with tracker := some tracker }
    log (.objectivesDetected width)

/-- Fitness with every entry ranked. The first entries of a run that could not be ranked are worth
a warning, and all are counted. -/
def ranked (F : Rows α) : Search σ α P (Rows α) := do
  let count := Fitness.unrankedCount F
  if count != 0 then
    if (← current).nonFinite == 0 then log (.nonFinite count)
    update fun run => { run with nonFinite := run.nonFinite + count }
  return Fitness.rankedRows F

/-- The fitness rows of a block for `n` candidates, with their width. Numbers without rows are
shared out evenly. -/
def blockRows (n : Nat) (block : Block α P) : Except Error (Nat × Rows α) :=
  match block.fitness.shape with
  | [] => .error (.fault .index)
  | [_] => block.fitness.rowsCount n
  | count :: _ =>
    if count != n then .error (.evaluation (.rowCount count n) none)
    else match block.fitness.rows? with
      | some rows => .ok rows
      | none => .error (.fault .value)

/-- Fails unless there is one payload per candidate, or none at all. -/
def checkProducts (n : Nat) (block : Block α P) : Except Error Unit :=
  match block.products with
  | some products =>
    if products.size != n then .error (.evaluation (.productCount products.size n) none)
    else .ok ()
  | none => .ok ()

/-- Evaluates candidates that need not belong to the population, after moving them into the box.
The result waits to be folded into the tracker. -/
def evaluate (evaluator : Evaluator σ α P) (X : Rows α) : Search σ α P (Rows α) := do
  let X := (← current).bounds.clipRows X
  if X.isEmpty then return #[]
  let block ← act (evaluator X)
  let (width, raw) ← ofExcept (blockRows X.size block)
  ofExcept (checkProducts X.size block)
  registerWidth width
  let F ← ranked raw
  update fun run =>
    { run with nEval := run.nEval + X.size, pending := run.pending.push ⟨X, F, block.products⟩ }
  return F

/-- `evaluate` for candidates in an array of any shape, which is cut into rows of the box. -/
def evaluateArray (evaluator : Evaluator σ α P) (X : Tensor α) : Search σ α P (Rows α) := do
  evaluate evaluator (← ofExcept (X.rowsOf (← current).dim))

/-- Evaluates the stale rows; answers how many there were. -/
def evaluateAll (evaluator : Evaluator σ α P) : Search σ α P Nat := do
  let run ← current
  let places := run.stalePlaces
  if places.isEmpty then return 0
  let F ← evaluate evaluator (places.map run.X.row).toArray
  update (·.settle places F)
  return places.length

/-- Folds one batch into a tracker; the members that a front gave up are added to `dropped`. -/
def foldBatch (acc : Tracker α P × List (Nat × Nat)) (batch : Batch α P) :
    Tracker α P × List (Nat × Nat) :=
  let (tracker, dropped) := acc.1.fold batch
  (tracker, acc.2 ++ dropped)

/-- Folds everything evaluated since the last time into the tracker. Rows without any objective
cannot be folded. -/
def updateBest : Search σ α P Unit := do
  let run ← current
  match run.tracker with
  | none => update fun run => { run with pending := #[] }
  | some tracker =>
    if run.nObj == some 0 && !run.pending.isEmpty then throw (.fault .value)
    let (tracker, dropped) := run.pending.foldl foldBatch (tracker, [])
    dropped.forM fun (limit, index) => log (.dropped limit index)
    update fun run => { run with tracker := some tracker, pending := #[] }

/-- Takes over a population that has been evaluated before. Its rows count as evaluated, but not as
evaluations of this run. -/
def seed (X F : Rows α) (width : Nat) : Search σ α P Unit := do
  registerWidth width
  let F ← ranked F
  update fun run =>
    { run with
      X := X
      F := some F
      stale := Array.replicate run.popSize false
      pending := run.pending.push ⟨X, F, none⟩ }
  log (.seeded (← current).popSize)

/-- Overwrites the rows at some indices, position and fitness together. The population must have
been evaluated. -/
def replace (indices : List Int) (X F : Tensor α) : Search σ α P Unit := do
  if indices.isEmpty then return
  let run ← current
  match run.F with
  | none => throw (.misuse .replaceUnevaluated)
  | some stored =>
    let X ← ofExcept (X.rowsExactly indices.length run.dim)
    let (width, F) ← ofExcept (F.rowsCount indices.length)
    let places ← ofExcept (run.places indices)
    update (·.put places X)
    let expected := (stored.row 0).size
    if width == expected then update (·.rate places F)
    else if width == 1 then
      update (·.rate places (F.map fun f => Row.tabulate expected fun _ => f.gene 0))
    else throw (.fault .value)

/-- Moves the rows at some indices, or all rows if none are given. -/
def setPositions (X : Tensor α) (indices : Option (List Int)) : Search σ α P Unit := do
  let run ← current
  match indices with
  | none =>
    let X ← ofExcept (X.rowsExactly run.popSize run.dim)
    update (·.moveAll X)
  | some indices =>
    let X ← ofExcept (X.rowsExactly indices.length run.dim)
    let places ← ofExcept (run.places indices)
    update (·.move places X)

/-- Accepts loose candidates for the rows at some indices where they are not worse. -/
def accept (indices : List Int) (X F : Tensor α) : Search σ α P (Array Bool) := do
  let run ← current
  let stored ← ofExcept run.fitness
  let places ← ofExcept (run.places indices)
  let width := (stored.row 0).size
  let mask ← ofExcept (Dominance.notWorseRowsTensor F
    (.ofRows width (Run.fitnessAt stored places)))
  if mask.contains true then
    if mask.size != indices.length then throw (.fault .index)
    let X ← ofExcept (X.select mask)
    let F ← ofExcept (F.select mask)
    replace (Run.selected mask indices) X F
  return mask

/-- One draw for each individual of a list, from the individual's own stream. -/
def drawEach (order : List Nat) (each : Nat → Draw β) : Search σ α P (Array β) :=
  order.foldlM (fun drawn i => return drawn.push (← draw (.individual i) (each i))) #[]

def perIndividual (each : Nat → Draw β) : Search σ α P (Array β) := do
  drawEach (List.range (← current).popSize) each

/-- Evaluates one candidate per individual; those that are not worse take the individual's place. -/
def evaluateAccept (evaluator : Evaluator σ α P) (X : Rows α) : Search σ α P Unit := do
  let F ← evaluate evaluator X
  let stored ← ofExcept (← current).fitness
  update fun run => (run.accept stored (List.range run.popSize) X F).2

end Search

end BoxSearch
