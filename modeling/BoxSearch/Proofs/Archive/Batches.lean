import BoxSearch.Proofs.Run.Boxed

/-!
Whole batches offered to an incumbent from outside.

The fitness of a batch comes as an array of whatever shape, which is cut into one row for each
point. There has to be a point for that: nothing can be cut into no rows, so that a batch without
points is refused, although it would have nothing to offer.
-/

namespace BoxSearch

open Scalar OrderedScalar Tensor

variable {α P : Type} [Scalar α] {X : Rows α} {F : Tensor α} {width : Nat}
  {products : Option (Array (Option P))}

/-- The batch that loose arrays make, with fitness rows of `width` entries. -/
def Batch.ofArrays (X : Rows α) (F : Tensor α) (width : Nat) (products : Option (Array (Option P))) :
    Batch α P :=
  ⟨X, cut X.size width F.entries, products⟩

/-- Fitness that is a number everywhere rates the points that it is cut up for. -/
theorem Batch.rated_ofArrays (products : Option (Array (Option P))) (wide : 1 ≤ width)
    (full : F.entries.size = X.size * width) (number : F.Numeric) :
    (Batch.ofArrays X F width products).Rated where
  size := size_cut X.size width F.entries
  number i hi := by
    have inside : i < (cut X.size width F.entries).size := by rwa [size_cut]
    have size : ((cut X.size width F.entries).row i).size = width := by
      have mem := Array.mem_toList_iff.mpr (Array.getElem_mem inside)
      have row : (cut X.size width F.entries).row i = (cut X.size width F.entries)[i] := by
        rw [Rows.row, Array.getD, dif_pos inside]
        rfl
      rw [row]
      exact even_cut (by omega) _ mem
    exact Rows.numeric_row (numeric_cut number X.size width) i 0 (by rw [size]; exact wide)

namespace Incumbent

/-- Loose arrays that fit together are offered as the batch that they make. -/
theorem offerMany_eq (s : Incumbent α P) (points : 1 ≤ X.size) (wide : 1 ≤ width)
    (full : F.entries.size = X.size * width) (payloads : ∀ ps ∈ products, ps.size = X.size) :
    s.offerMany X F products =
      .ok (s.offerBatch X (cut X.size width F.entries)
        (Batch.ofArrays X F width products).product) := by
  have rows : F.rowsCount X.size = .ok (width, cut X.size width F.entries) := by
    have divides : F.entries.size % X.size = 0 := by rw [full, Nat.mul_mod_right]
    have quotient : F.entries.size / X.size = width := by
      rw [full, Nat.mul_div_cancel_left _ points]
    have some_ : (X.size == 0) = false := by simpa using (show X.size ≠ 0 by omega)
    simp only [rowsCount, divides, quotient, some_, bne_self_eq_false, Bool.false_eq_true, if_false]
  have positive : (width == 0) = false := by simpa using (show width ≠ 0 by omega)
  have reached : ∀ ps ∈ products, ∀ i, argMin? ((cut X.size width F.entries).column 0) = some i →
      ¬ps.size ≤ i := by
    intro ps hps i least
    have below := argMin?_lt least
    rw [Rows.column, Array.size_map, size_cut] at below
    have size := payloads ps hps
    omega
  rw [offerMany, rows]
  simp only [bind, Except.bind, positive, Bool.false_eq_true, if_false]
  cases products with
  | none => rfl
  | some ps =>
    cases least : argMin? ((cut X.size width F.entries).column 0) with
    | none => rfl
    | some i =>
      simp only [if_neg (reached ps rfl i least)]
      rfl

/-- The incumbent has changed exactly if the best row of the batch has taken its place. -/
theorem offerBatch_changed [OrderedScalar α] (s : Incumbent α P) (X F : Rows α)
    (product : Nat → Option P) :
    (s.offerBatch X F product).1 = true ↔ (s.offerBatch X F product).2 ≠ s := by
  rw [offerBatch]
  cases argMin? (F.column 0) with
  | none => simp
  | some i =>
    dsimp only
    rw [offer]
    by_cases taken : (s.point.isNone || decide ((F.row i).gene 0 < s.fitness)) = true
    · rw [if_pos taken]
      refine ⟨fun _ same => ?_, fun _ => rfl⟩
      rw [← same] at taken
      simp [Scalar.lt_irrefl] at taken
    · rw [if_neg taken]
      simp

variable [OrderedScalar α]

/-- A batch of at least one point leaves the incumbent that its points would leave one after
another, and reports whether that is a new one. A batch without points is refused. -/
theorem offerMany_outcome (s : Incumbent α P) (wide : 1 ≤ width)
    (full : F.entries.size = X.size * width) (number : F.Numeric)
    (payloads : ∀ ps ∈ products, ps.size = X.size) :
    (1 ≤ X.size → ∃ taken s', s.offerMany X F products = .ok (taken, s') ∧
      s' = (Batch.ofArrays X F width products).members.foldl take s ∧
      (taken = true ↔ s' ≠ s)) ∧
    (X.size = 0 → s.offerMany X F products = .error (.fault .value)) := by
  refine ⟨fun points => ⟨_, _, offerMany_eq s points wide full payloads, ?_, ?_⟩, fun none => ?_⟩
  · exact offerBatch_eq_foldl (Batch.rated_ofArrays products wide full number) s
  · exact offerBatch_changed s _ _ _
  · rw [offerMany, none]
    rfl

/-- Of two equally good points behind one that is infinitely bad, the first one is kept. -/
theorem offerMany_outcome_tie :
    let X : Rows Float := #[#[1.0], #[2.0], #[3.0]]
    let F : Tensor Float := .ofRow #[Scalar.infinity, 0.5, 0.5]
    ∃ taken s', (empty : Incumbent Float Value).offerMany X F none = .ok (taken, s') ∧
      s' = (Batch.ofArrays X F 1 none).members.foldl take empty ∧
      (taken = true ↔ s' ≠ empty) ∧ s'.point = some #[2.0] := by
  intro X F
  have payloads : ∀ ps ∈ (none : Option (Array (Option Value))), ps.size = X.size := by simp
  obtain ⟨taken, s', answer, kept, changed⟩ :=
    (offerMany_outcome (F := F) empty (Nat.le_refl 1) rfl (by decide +kernel) payloads).1 (by decide)
  refine ⟨taken, s', answer, kept, changed, ?_⟩
  rw [kept]
  decide +kernel

/-- An empty batch is no batch that changes nothing. -/
theorem offerMany_refuses_empty :
    ¬∃ taken, (empty : Incumbent Float Value).offerMany #[] (.ofRow #[]) none = .ok (taken, empty) := by
  rintro ⟨taken, accepted⟩
  cases accepted

end Incumbent

end BoxSearch
