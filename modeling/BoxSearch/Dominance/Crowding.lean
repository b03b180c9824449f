import BoxSearch.Scalar.Basic

/-!
Crowding distances of a set of fitness vectors.

For every objective the members are put in order. The first and the last one get an infinite
distance; every other member gets, on top of what it has, the gap between its two neighbours as a
part of the whole range. An objective whose range is empty or not finite adds nothing.
-/

namespace BoxSearch.Crowding

variable {α : Type} [Scalar α]

/-- The order of entries in which one that is not a number comes last. -/
def precedes (a b : α) : Bool :=
  decide (a < b) || (Scalar.isNaN b && !Scalar.isNaN a)

/-- The indices of the entries in increasing order; equal entries keep their order. -/
def ranking (values : Array α) : List Nat :=
  (List.range values.size).mergeSort fun i j =>
    !precedes (values.getD j Scalar.zero) (values.getD i Scalar.zero)

/-- The gaps that one objective adds: index, and the distance between the two neighbours as a part
of `span`. -/
def gaps (values : Array α) (span : α) : List Nat → List (Nat × α)
  | before :: here :: after :: rest =>
    (here, (values.getD after Scalar.zero - values.getD before Scalar.zero) / span)
      :: gaps values span (here :: after :: rest)
  | _ => []

/-- The distances after one more objective, whose values are given. -/
def addObjective (distances values : Array α) : Array α :=
  match ranking values with
  | [] => distances
  | first :: rest =>
    let last := rest.getLastD first
    let distances := distances.setIfInBounds first Scalar.infinity
    let distances := distances.setIfInBounds last Scalar.infinity
    let span := values.getD last Scalar.zero - values.getD first Scalar.zero
    if !Scalar.isFinite span || decide (span ≤ Scalar.zero) then distances
    else (gaps values span (first :: rest)).foldl (fun d (i, gap) => d.modify i (· + gap)) distances

/-- The crowding distance of every row. Up to two rows are all extreme. -/
def distances (width : Nat) (F : Rows α) : Array α :=
  if F.size ≤ 2 then F.map fun _ => Scalar.infinity
  else (List.range width).foldl (fun d m => addObjective d (F.column m))
    (F.map fun _ => Scalar.zero)

end BoxSearch.Crowding
