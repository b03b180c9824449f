import BoxSearch.Problem.Basic

/-!
Cutting a batch into chunks and putting the results together again.

Chunks are consecutive slices of equal length, the last one possibly shorter. Their results may
arrive in any order; they are sorted by where they start, and every result must have the width of
the one that arrived first.
-/

namespace BoxSearch

/-- A slice `[start, stop)` of a batch. -/
structure Slice where
  start : Nat
  stop : Nat
deriving Repr, BEq, DecidableEq

namespace Slice

/-- Consecutive slices of length `size` that cover `[start, n)`; `fuel` bounds their number. -/
def tile (n size : Nat) : Nat → Nat → List Slice
  | 0, _ => []
  | fuel + 1, start =>
    if start < n then ⟨start, min (start + size) n⟩ :: tile n size fuel (start + size) else []

/-- A whole number in binary, with all its digits. -/
def exactly : Int → Float.Model.UnpackedFloat
  | 0 => .zero .positive
  | .ofNat (n + 1) => .finite .positive (n + 1) 0 n.succ_pos
  | .negSucc n => .finite .negative (n + 1) 0 n.succ_pos

/-- What each of some workers gets of `n` rows: the quotient, rounded to double precision once. -/
def share (n workers : Int) : Float :=
  .ofModel (.pack (.div .binary64 (exactly n) (exactly workers)))

/-- The least natural number that is not below a number; infinities have none and give zero. -/
def roundUp (x : Float) : Nat :=
  match x.toModel.unpack with
  | .finite .positive mantissa exponent _ =>
    let whole := (-exponent).toNat
    (mantissa <<< exponent.toNat + (1 <<< whole - 1)) >>> whole
  | _ => 0

/-- The length of a slice: the wanted one if it is positive, else a worker's share of `n` rows,
rounded up. -/
def chunkLength (n workers : Int) (wanted : Option Int) : Nat :=
  match wanted with
  | some size => if 0 < size then size.toNat else spread
  | none => spread
where
  spread : Nat := max 1 (roundUp (share n workers))

/-- The slices of a batch of `n` rows for a number of workers. -/
def chunks (n : Nat) (workers : Int) (wanted : Option Int) : List Slice :=
  tile n (chunkLength n workers wanted) n 0

/-- `chunks` for any numbers. Unless the length is given, no workers at all are a failure, and so is
a share beyond the largest number. -/
def chunks? (n workers : Int) (wanted : Option Int) : Except Error (List Slice) :=
  if wanted.any (0 < ·) then .ok (chunks n.toNat workers wanted)
  else if workers == 0 then .error (.fault .zeroDivision)
  else if (share n workers).isInf then .error (.fault .overflow)
  else .ok (chunks n.toNat workers wanted)

end Slice

/-- The result of one chunk and where the chunk starts. -/
structure Part (α P : Type) where
  start : Nat
  block : Block α P

namespace Part

variable {α P : Type} [Scalar α]

/-- A batch being filled from parts. A place that no part covers keeps whatever row it has. -/
structure Filling (α P : Type) where
  rows : Rows α
  products : Option (Array (Option P))

/-- Writes the rows of one part. Rows beyond the end do not fit, except that a single one is
dropped. -/
def place (n width : Nat) (filling : Filling α P) (part : Part α P) :
    Except Error (Filling α P) :=
  match part.block.fitness.rows? with
  | none => .error (.fault .index)
  | some (partWidth, rows) =>
    if partWidth != width then
      .error (.evaluation (.unevenChunk partWidth part.start width) none)
    else if n < part.start + rows.size && 1 < rows.size then .error (.fault .value)
    else
      let written := (List.range rows.size).foldl (fun acc i =>
        acc.setIfInBounds (part.start + i) (rows.row i)) filling.rows
      let products := match part.block.products with
        | none => filling.products
        | some new =>
          let old := filling.products.getD (Array.replicate n none)
          some (old.extract 0 part.start ++ new ++
            old.extract (part.start + rows.size) old.size)
      .ok ⟨written, products⟩

/-- The parts in the order of their rows; equal starts keep their order. -/
def inOrder (parts : List (Part α P)) : List (Part α P) :=
  parts.mergeSort fun p q => p.start ≤ q.start

/-- One block of `n` rows from parts in the order in which they arrived. -/
def stitch (n : Nat) (parts : List (Part α P)) : Except Error (Block α P) :=
  match parts.head?.bind (·.block.fitness.rows?) with
  | none => .error (.fault .index)
  | some (width, _) => do
    let start : Filling α P := ⟨Array.replicate n (Array.replicate width Scalar.zero), none⟩
    let filled ← (inOrder parts).foldlM (place n width) start
    return ⟨.ofRows width filled.rows, filled.products⟩

end Part

end BoxSearch
