import BoxSearch.Value.Number

/-!
Arrays of numbers of any number of dimensions.

A tensor is a shape with its entries in row order. Nested lists become tensors if every list at
one depth has the same length; most operations then want rows of a known width, which `rowsOf`
provides.
-/

namespace BoxSearch

/-- One parameter vector or one fitness vector. -/
abbrev Row (α : Type) := Array α

/-- A batch of vectors, one per individual or candidate. -/
abbrev Rows (α : Type) := Array (Row α)

/-- A shape and as many entries as it has places, the last index moving fastest. -/
structure Tensor (α : Type) where
  shape : List Nat
  entries : Array α
deriving Repr, BEq

namespace Tensor

variable {α : Type}

def places (shape : List Nat) : Nat :=
  shape.foldl (· * ·) 1

def rank (t : Tensor α) : Nat :=
  t.shape.length

/-- The shape as it is shown in messages. -/
def dims (t : Tensor α) : List Int :=
  t.shape.map Int.ofNat

def scalar (x : α) : Tensor α :=
  ⟨[], #[x]⟩

def ofRow (x : Row α) : Tensor α :=
  ⟨[x.size], x⟩

def ofRows (width : Nat) (rows : Rows α) : Tensor α :=
  ⟨[rows.size, width], rows.flatten⟩

/-- The entries cut into `count` rows of `width` entries each. -/
def cut (count width : Nat) (entries : Array α) : Rows α :=
  (Array.range count).map fun i => entries.extract (i * width) ((i + 1) * width)

/-- The rows of a tensor of two dimensions. -/
def rows? (t : Tensor α) : Option (Nat × Rows α) :=
  match t.shape with
  | [count, width] => some (width, cut count width t.entries)
  | _ => none

/-- The entries as rows of `width`, however the tensor was shaped; they must come out even. -/
def rowsOf (width : Nat) (t : Tensor α) : Except Error (Rows α) :=
  if width == 0 then .error (.fault .value)
  else if t.entries.size % width != 0 then .error (.fault .value)
  else .ok (cut (t.entries.size / width) width t.entries)

/-- The entries as exactly `count` rows of `width`. -/
def rowsExactly (count width : Nat) (t : Tensor α) : Except Error (Rows α) :=
  if t.entries.size == count * width then .ok (cut count width t.entries)
  else .error (.fault .value)

/-- The entries as `count` rows of whatever width makes them come out even, with that width. -/
def rowsCount (count : Nat) (t : Tensor α) : Except Error (Nat × Rows α) :=
  if count == 0 then .error (.fault .value)
  else if t.entries.size % count != 0 then .error (.fault .value)
  else
    let width := t.entries.size / count
    .ok (width, cut count width t.entries)

/-- The part of a tensor that a mask over its first dimension selects. -/
def select (mask : Array Bool) (t : Tensor α) : Except Error (Tensor α) :=
  match t.shape with
  | [] => .error (.fault .index)
  | count :: rest =>
    if count != mask.size then .error (.fault .index)
    else
      let kept := ((mask.zip (cut count (places rest) t.entries)).filter (·.1)).map (·.2)
      .ok ⟨kept.size :: rest, kept.flatten⟩

end Tensor

namespace Value

mutual

/-- The shape of nested lists, if the lists at each depth agree in length. -/
def shape? : Value → Option (List Nat)
  | list items => itemsShape? items
  | tuple items => itemsShape? items
  | _ => some []

/-- The shape of a list of values: its length and the common shape of the items. -/
def itemsShape? : List Value → Option (List Nat)
  | [] => some [0]
  | first :: rest =>
    match first.shape? with
    | some shape => if allShaped shape rest then some ((rest.length + 1) :: shape) else Option.none
    | Option.none => Option.none

def allShaped (shape : List Nat) : List Value → Bool
  | [] => true
  | v :: rest => (match v.shape? with | some s => s == shape | Option.none => false) && allShaped shape rest

end

mutual

/-- The entries of nested lists, in order; the first one that is no number decides the failure. -/
def entries : Value → Except Error (List Float)
  | list items => entriesOf items
  | tuple items => entriesOf items
  | v => v.toEntry.map ([·])

/-- The entries of several values, one after another. -/
def entriesOf : List Value → Except Error (List Float)
  | [] => .ok []
  | v :: rest => do
    let here ← v.entries
    let more ← entriesOf rest
    return here ++ more

end

/-- The value as an array of numbers. Lists of uneven length are no array. -/
def toTensor (v : Value) : Except Error (Tensor Float) :=
  match v.shape? with
  | some shape => do
    let entries ← v.entries
    return ⟨shape, entries.toArray⟩
  | Option.none => .error (.fault .value)

def toTensor? (v : Value) : Except Error (Option (Tensor Float)) :=
  v.present?.mapM toTensor

/-- Items in row order as nested lists of a shape. -/
def nested : List Nat → Array Value → Value
  | [], items => items.getD 0 .absent
  | count :: rest, items =>
    .list ((Tensor.cut count (Tensor.places rest) items).toList.map (nested rest))

def ofTensor (t : Tensor Float) : Value :=
  nested t.shape (t.entries.map float)

def ofRows (X : Rows Float) : Value :=
  list (X.toList.map ofFloats)

def ofOption {β : Type} (encode : β → Value) : Option β → Value
  | some x => encode x
  | Option.none => absent

def ofProducts (products : Array (Option Value)) : Value :=
  list (products.toList.map fun p => p.getD absent)

end Value

end BoxSearch
