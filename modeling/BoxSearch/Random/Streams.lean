import BoxSearch.Random.Draw
import Std.Data.HashMap

/-!
The streams of one run.

Every individual owns a stream, and the run has one more for decisions that concern all of them. A
stream starts where its number puts it and goes on from where it was left. So an individual's draws
do not depend on which other streams were used before.
-/

namespace BoxSearch

/-- The number of the stream for decisions that concern the whole run. -/
def driverId : Nat := UInt32.size - 1

/-- Which stream is drawn from. -/
inductive StreamId where
  | individual (i : Nat)
  | driver
deriving Repr, BEq, DecidableEq

/-- The seed of a run and the streams that have been drawn from. -/
structure Streams where
  seed : Nat
  individuals : Std.HashMap Nat Random.Generator
  driver : Option Random.Generator

namespace Streams

/-- The streams of a run before any draw. -/
def start (seed : Nat) : Streams := ⟨seed, ∅, none⟩

/-- The root of the streams of a run as it is shown. -/
def shownSeed (seed : Nat) : String := "RngRoot(seed=" ++ toString seed ++ ")"

def get (s : Streams) : StreamId → Random.Generator
  | .individual i => (s.individuals[i]?).getD (.seeded s.seed i)
  | .driver => s.driver.getD (.seeded s.seed driverId)

def set (s : Streams) (id : StreamId) (g : Random.Generator) : Streams :=
  match id with
  | .individual i => { s with individuals := s.individuals.insert i g }
  | .driver => { s with driver := some g }

@[simp]
theorem get_set (s : Streams) (id id' : StreamId) (g : Random.Generator) :
    (s.set id g).get id' = if id = id' then g else s.get id' := by
  cases id <;> cases id' <;> simp [set, get, Std.HashMap.getElem?_insert]
  split <;> simp_all

def run {β : Type} (id : StreamId) (draw : Draw β) (s : Streams) : Except Error β × Streams :=
  let (result, g) := draw (s.get id)
  (result, s.set id g)

end Streams

/-- The seed that a value stands for: a whole number that fits 64 bits. Nothing stands for a fresh
one, which the caller supplies. -/
def seedOf (fresh : Nat) : Value → Except Error Nat
  | .absent => .ok (fresh % UInt64.size)
  | .int n =>
    if 0 ≤ n ∧ n < UInt64.size then .ok n.toNat
    else .error (.parameter "seed" (.int n) "in [0, 2**64)" none)
  | v => .error (.parameter "seed" v "a non-negative integer or None" none)

/-- The stream of a seed with a number, which must not be negative. -/
def streamOf (seed : Nat) (id : Int) : Except Error Random.Generator :=
  if id < 0 then .error (.misuse (.negativeStream id)) else .ok (.seeded seed id.toNat)

end BoxSearch
