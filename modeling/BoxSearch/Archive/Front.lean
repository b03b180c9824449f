import BoxSearch.Dominance.Basic
import BoxSearch.Dominance.Crowding
import BoxSearch.Random.Draw

/-!
The Pareto front of a run with several objectives.

A front holds points none of which dominates another. A new point enters unless a member dominates
it or equals it in parameters and fitness; the members that it dominates leave. A front with a
limit then gives up its most crowded member, the newest of several equally crowded ones. Crowding
distances are kept from one question to the next and forgotten when the membership changes.
-/

namespace BoxSearch

/-- A point of a front with its fitness and payload. -/
structure Member (α P : Type) where
  x : Row α
  f : Row α
  product : Option P
deriving BEq

/-- A set of points that do not dominate each other, in the order in which they entered. -/
structure Front (α P : Type) where
  nVar : Nat
  nObj : Nat
  limit : Option Nat
  members : Array (Member α P)
  crowding : Option (Array α)
deriving BEq

/-- What came of an offer: the front, whether the point entered, and which member had to leave for
the limit. -/
structure Offered (α P : Type) where
  front : Front α P
  entered : Bool
  dropped : Option Nat

namespace Front

variable {α P : Type}

/-- The size limit that a value asks for; it must be positive. -/
def limitOf : Value → Except Error (Option Nat)
  | .absent => .ok none
  | v => do
    let n ← v.toInt
    if n ≤ 0 then throw (.misuse .frontLimit) else return some n.toNat

def empty (nVar nObj : Nat) (limit : Option Nat) : Front α P := ⟨nVar, nObj, limit, #[], none⟩

def size (s : Front α P) : Nat := s.members.size

def X (s : Front α P) : Rows α := s.members.map (·.x)

def F (s : Front α P) : Rows α := s.members.map (·.f)

def products (s : Front α P) : Array (Option P) := s.members.map (·.product)

variable [Scalar α]

/-- The crowding distances of the members. -/
def distances (s : Front α P) : Array α :=
  match s.crowding with
  | some d => d
  | none => Crowding.distances s.nObj s.F

/-- The front with its crowding distances at hand. -/
def measured (s : Front α P) : Front α P := { s with crowding := some s.distances }

/-- The place of the most crowded member, the last of several. -/
def mostCrowded? (s : Front α P) : Option Nat :=
  let d := s.distances
  match (Scalar.argMin? d).map (d.getD · Scalar.zero) with
  | some least => (List.range d.size).reverse.find? fun i => d.getD i Scalar.zero == least
  | none => none

/-- Gives up the most crowded member if there are more members than the limit allows. -/
def truncate (s : Front α P) : Front α P × Option Nat :=
  match s.limit with
  | some limit =>
    if limit < s.size then
      match s.mostCrowded? with
      | some i => ({ s with members := s.members.eraseIdxIfInBounds i, crowding := none }, some i)
      | none => (s, none)
    else (s, none)
  | none => (s, none)

/-- A member keeps a point out: it dominates the point or equals it. -/
def bars (m : Member α P) (x f : Row α) : Bool :=
  Dominance.dominates m.f f || (m.f.same f && m.x.same x)

def offer (s : Front α P) (x f : Row α) (product : Option P) : Offered α P :=
  if s.members.any (bars · x f) then ⟨s, false, none⟩
  else
    let kept := s.members.filter fun m => !Dominance.dominates f m.f
    let (front, dropped) := { s with members := kept.push ⟨x, f, product⟩, crowding := none }.truncate
    ⟨front, true, dropped⟩

/-- A front together with the number of points that entered and the members dropped on the way. -/
structure Tally (α P : Type) where
  front : Front α P
  entered : Nat
  dropped : List Nat

def Tally.offer (t : Tally α P) (point : Row α × Row α × Option P) : Tally α P :=
  let o := t.front.offer point.1 point.2.1 point.2.2
  ⟨o.front, if o.entered then t.entered + 1 else t.entered, t.dropped ++ o.dropped.toList⟩

def offerAll (s : Front α P) (points : List (Row α × Row α × Option P)) : Tally α P :=
  points.foldl Tally.offer ⟨s, 0, []⟩

/-- The `i`-th point of a batch, if fitness and payload reach that far. -/
def pointAt? (X F : Rows α) (products : Option (Array (Option P))) (i : Nat) :
    Option (Row α × Row α × Option P) :=
  match X[i]?, F[i]?, products with
  | some x, some f, none => some (x, f, none)
  | some x, some f, some ps => (ps[i]?).map fun p => (x, f, p)
  | _, _, _ => none

/-- Offers the rows of a batch up to the first one whose fitness or payload is missing; such a row
is a failure. -/
def offerMany (s : Front α P) (X F : Rows α) (products : Option (Array (Option P))) :
    Tally α P × Except Error Unit :=
  let points := (List.range X.size).map (pointAt? X F products)
  let found := (points.takeWhile Option.isSome).filterMap id
  (s.offerAll found, if found.length < X.size then .error (.fault .index) else .ok ())

/-- The member whose objectives have the smallest sum, the first of several. -/
def representative (s : Front α P) : Except Error (Member α P) :=
  match (Scalar.argMin? (s.F.map Scalar.total)).bind (s.members[·]?) with
  | some m => .ok m
  | none => .error (.misuse .emptyFront)

/-- The winner of a comparison of two members by crowding distance: the second one only if it is
less crowded. -/
def lessCrowded (s : Front α P) (a b : Nat) : Nat :=
  if a != b then
    if s.distances.getD a Scalar.zero < s.distances.getD b Scalar.zero then b else a
  else a

variable {m : Type → Type} [Monad m] [MonadExceptOf Error m] [RandomSource m]

def sample (s : Front α P) : m (Row α × Row α) := do
  if s.members.isEmpty then throw (.misuse .emptyFront)
  let i ← RandomSource.below s.size
  return (s.X.row i, s.F.row i)

/-- The less crowded of two random members. -/
def tournament (s : Front α P) : m (Row α) := do
  if s.members.isEmpty then throw (.misuse .emptyFront)
  let a ← RandomSource.below s.size
  let b ← RandomSource.below s.size
  return s.X.row (s.lessCrowded a b)

end Front

end BoxSearch
