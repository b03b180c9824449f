import BoxSearch.Scalar.Basic

/-!
Pareto dominance between fitness vectors; smaller is better.

One vector dominates another when no entry is larger and some entry is smaller. The comparisons
come one pair at a time and for whole batches. On a single objective "not worse" is `≤`, which an
entry that is not a number fails in both directions; the batch comparison asks for dominance
instead and lets such an entry pass.
-/

namespace BoxSearch.Dominance

variable {α : Type} [Scalar α]

/-- No entry of `a` is above the entry of `b` in the same place. -/
def nowhereAbove (a b : Row α) : Bool :=
  (List.range a.size).all fun j => decide (a.gene j ≤ b.gene j)

/-- Some entry of `a` is below the entry of `b` in the same place. -/
def somewhereBelow (a b : Row α) : Bool :=
  (List.range a.size).any fun j => decide (a.gene j < b.gene j)

def dominates (a b : Row α) : Bool :=
  nowhereAbove a b && somewhereBelow a b

/-- `a` is as good a choice as `b`: at most `b` on a single objective, not dominated by `b`
otherwise. Two infinite values count as equally good. -/
def notWorse (a b : Row α) : Bool :=
  if a.size == 1 then decide (a.gene 0 ≤ b.gene 0) else !dominates b a

/-- Row by row: the row of `B` does not dominate the row of `A`. -/
def notWorseRows (A B : Rows α) : Array Bool :=
  Array.zipWith (fun le lt => !(le && lt))
    (Array.zipWith nowhereAbove B A) (Array.zipWith somewhereBelow B A)

def dominatesRows (A : Rows α) (b : Row α) : Array Bool :=
  Array.zipWith (· && ·) (A.map (nowhereAbove · b)) (A.map (somewhereBelow · b))

/-- Which rows of `A` are dominated by `b`. -/
def dominatedRows (A : Rows α) (b : Row α) : Array Bool :=
  Array.zipWith (· && ·) (A.map (nowhereAbove b ·)) (A.map (somewhereBelow b ·))

end BoxSearch.Dominance
