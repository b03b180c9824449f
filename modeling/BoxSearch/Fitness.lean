import BoxSearch.Tensor.Basic
import BoxSearch.Scalar.Basic

/-!
Fitness values that can be ranked.

An objective may answer with something that is not a number, or with a value below all others.
Neither can be compared in earnest, so both count as the worst value there is.
-/

namespace BoxSearch.Fitness

variable {α : Type} [Scalar α]

/-- A value that is not a number, or is below all others. -/
def unranked (a : α) : Bool :=
  Scalar.isNaN a || a == -(Scalar.infinity : α)

/-- The value that is ranked in place of `a`. -/
def ranked (a : α) : α :=
  if unranked a then Scalar.infinity else a

/-- The number of entries that cannot be ranked. -/
def unrankedCount (F : Rows α) : Nat :=
  F.flatten.countP unranked

def rankedRows (F : Rows α) : Rows α :=
  F.map fun f => f.map ranked

/-- An array with every entry ranked, and the number of entries that could not be ranked. -/
def rankedTensor (t : Tensor α) : Tensor α × Nat :=
  (⟨t.shape, t.entries.map ranked⟩, t.entries.countP unranked)

end BoxSearch.Fitness
