import BoxSearch.Dominance.Basic
import BoxSearch.Dominance.Crowding
import BoxSearch.Tensor.Broadcast

/-!
Dominance and crowding for arrays of any shape.

The comparisons stretch their operands to a common shape. Those that answer row by row need a
result of two dimensions.
-/

namespace BoxSearch.Dominance

variable {α : Type} [Scalar α]

/-- Some entry fails nowhere and one succeeds: dominance over all entries at once. -/
def dominatesTensor (a b : Tensor α) : Except Error Bool := do
  let le ← Tensor.combine (fun x y => decide (x ≤ y)) a b
  let lt ← Tensor.combine (fun x y => decide (x < y)) a b
  return le.entries.all id && lt.entries.any id

/-- A single number is compared with the first entry of the other array. -/
def notWorseTensor (a b : Tensor α) : Except Error Bool :=
  if a.entries.size == 1 then
    match a.entries[0]?, b.entries[0]? with
    | some x, some y => .ok (decide (x ≤ y))
    | _, _ => .error (.fault .index)
  else (dominatesTensor b a).map not

/-- Row by row dominance: all of `le` and some of `lt` in each row. -/
private def rowMask (le lt : Tensor Bool) : Except Error (Array Bool) :=
  match le.rows?, lt.rows? with
  | some (_, les), some (_, lts) =>
    .ok (Array.zipWith (fun p q => p.all id && q.any id) les lts)
  | _, _ => .error (.fault .axis)

def dominatesRowsTensor (A b : Tensor α) : Except Error (Array Bool) := do
  let le ← Tensor.combine (fun x y => decide (x ≤ y)) A b
  let lt ← Tensor.combine (fun x y => decide (x < y)) A b
  rowMask le lt

/-- The mask of two arrays whose comparisons have `count` rows of `width` entries. -/
theorem dominatesRowsTensor_eq {A b : Tensor α} {count width : Nat} {le lt : Array Bool}
    (hle : Tensor.combine (fun x y => decide (x ≤ y)) A b = .ok ⟨[count, width], le⟩)
    (hlt : Tensor.combine (fun x y => decide (x < y)) A b = .ok ⟨[count, width], lt⟩) :
    dominatesRowsTensor A b =
      .ok (Array.zipWith (fun p q => p.all id && q.any id)
        (Tensor.cut count width le) (Tensor.cut count width lt)) := by
  rw [dominatesRowsTensor, hle, hlt]
  rfl

/-- Which rows of `A` are dominated by `b`. -/
def dominatedRowsTensor (A b : Tensor α) : Except Error (Array Bool) :=
  dominatesRowsTensor b A

/-- Row by row "not worse"; two vectors are compared entry by entry with `≤`. -/
def notWorseRowsTensor (A B : Tensor α) : Except Error (Array Bool) :=
  if A.entries.size != B.entries.size then .error (.fault .value)
  else
    let B : Tensor α := ⟨A.shape, B.entries⟩
    match A.shape with
    | [_] => .ok (Array.zipWith (fun x y => decide (x ≤ y)) A.entries B.entries)
    | _ => (dominatesRowsTensor B A).map (·.map not)

end BoxSearch.Dominance

namespace BoxSearch.Crowding

variable {α : Type} [Scalar α]

/-- The crowding distances of the rows of an array. -/
def distancesTensor (F : Tensor α) : Except Error (Array α) :=
  match F.shape with
  | [] => .error (.fault .index)
  | count :: _ =>
    if count ≤ 2 then .ok (Array.replicate count Scalar.infinity)
    else match F.rows? with
      | some (width, rows) => .ok (distances width rows)
      | none => .error (.fault .index)

end BoxSearch.Crowding

namespace BoxSearch.Dominance

private def maskValue (mask : Array Bool) : Value :=
  .list (mask.toList.map .bool)

/-- A comparison by its name; the crowding distance concerns the first array only. -/
def named (name : String) (a b : Tensor Float) : Except Error Value :=
  if name == "dominates" then (dominatesTensor a b).map .bool
  else if name == "is_not_worse" then (notWorseTensor a b).map .bool
  else if name == "not_worse_rows" then (notWorseRowsTensor a b).map maskValue
  else if name == "dominates_rows" then (dominatesRowsTensor a b).map maskValue
  else if name == "dominated_by_rows" then (dominatedRowsTensor a b).map maskValue
  else if name == "crowding_distance" then (Crowding.distancesTensor a).map .ofFloats
  else .error (.fault .attribute)

end BoxSearch.Dominance
