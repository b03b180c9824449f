import BoxSearch.Bounds.Basic

/-!
The laws of comparison that the search relies on, and what follows for moving numbers into an
interval. A number that is not `≤` itself is not a number: it takes part in no comparison, so every
law speaks of the numbers proper. Among those `≤` is total, and the two zeros are equal without
being the same.
-/

namespace BoxSearch

/-- Comparison of scalars is a total order up to `==`, once what is not a number is set aside. -/
class OrderedScalar (α : Type) [Scalar α] : Prop where
  le_trans {a b c : α} : a ≤ b → b ≤ c → a ≤ c
  le_self_of_le {a b : α} : a ≤ b → a ≤ a ∧ b ≤ b
  le_total {a b : α} : a ≤ a → b ≤ b → a ≤ b ∨ b ≤ a
  lt_iff {a b : α} : a < b ↔ a ≤ b ∧ ¬b ≤ a
  beq_iff {a b : α} : (a == b) = true ↔ a ≤ b ∧ b ≤ a
  infinity_le_self : (Scalar.infinity : α) ≤ Scalar.infinity
  le_infinity {a : α} : a ≤ a → a ≤ Scalar.infinity
  neg_infinity_le {a : α} : a ≤ a → -(Scalar.infinity : α) ≤ a

namespace Scalar

open OrderedScalar

variable {α : Type} [Scalar α] [OrderedScalar α] {a b c : α}

theorem isNaN_eq_false_iff : isNaN a = false ↔ a ≤ a := by
  rw [isNaN, Bool.not_eq_false', beq_iff, and_self]

theorem le_of_lt (h : a < b) : a ≤ b :=
  (lt_iff.mp h).1

theorem not_le_of_lt (h : a < b) : ¬b ≤ a :=
  (lt_iff.mp h).2

theorem lt_irrefl (a : α) : ¬a < a :=
  fun h => not_le_of_lt h (le_of_lt h)

theorem lt_of_lt_of_le (hab : a < b) (hbc : b ≤ c) : a < c :=
  lt_iff.mpr ⟨le_trans (le_of_lt hab) hbc, fun hca => not_le_of_lt hab (le_trans hbc hca)⟩

theorem lt_of_le_of_lt (hab : a ≤ b) (hbc : b < c) : a < c :=
  lt_iff.mpr ⟨le_trans hab (le_of_lt hbc), fun hca => not_le_of_lt hbc (le_trans hca hab)⟩

theorem lt_trans (hab : a < b) (hbc : b < c) : a < c :=
  lt_of_lt_of_le hab (le_of_lt hbc)

/-- Of two numbers one is below the other, or the other is at most that one. -/
theorem lt_or_le (ha : a ≤ a) (hb : b ≤ b) : a < b ∨ b ≤ a := by
  by_cases h : b ≤ a
  · exact .inr h
  · rcases le_total ha hb with hab | hba
    · exact .inl (lt_iff.mpr ⟨hab, h⟩)
    · exact absurd hba h

theorem le_of_not_lt (ha : a ≤ a) (hb : b ≤ b) (h : ¬a < b) : b ≤ a :=
  (lt_or_le ha hb).resolve_left h

theorem beq_trans (hab : (a == b) = true) (hbc : (b == c) = true) : (a == c) = true := by
  rw [beq_iff] at hab hbc ⊢
  exact ⟨le_trans hab.1 hbc.1, le_trans hbc.2 hab.2⟩

omit [OrderedScalar α] in
theorem isFinite_iff_between : isFinite a = true ↔ -(infinity : α) < a ∧ a < infinity := by
  simp [isFinite]

theorem isFinite_of_between {low high : α} (hlow : isFinite low = true)
    (hhigh : isFinite high = true) (above : low ≤ a) (below : a ≤ high) : isFinite a = true := by
  rw [isFinite_iff_between] at hlow hhigh ⊢
  exact ⟨lt_of_lt_of_le hlow.1 above, lt_of_le_of_lt below hhigh.2⟩

theorem le_self_of_isFinite (h : isFinite a = true) : a ≤ a :=
  (le_self_of_le (le_of_lt (isFinite_iff_between.mp h).2)).1

omit [OrderedScalar α] in
/-- What is not a number stays what it is. -/
theorem clamp_eq_self (h : isNaN a = true) (low high : α) : clamp a low high = a := by
  simp [clamp, larger, smaller, h]

/-- A number moved into an interval is in it, so that moving it again changes nothing, not even the
sign of a zero. What is not a number is passed on both times. -/
theorem clamp_clamp (a : α) {low high : α} (h : low ≤ high) :
    clamp (clamp a low high) low high = clamp a low high := by
  have hlow : low ≤ low := (le_self_of_le h).1
  have hhigh : high ≤ high := (le_self_of_le h).2
  have lowNumber : isNaN low = false := isNaN_eq_false_iff.mpr hlow
  have highNumber : isNaN high = false := isNaN_eq_false_iff.mpr hhigh
  by_cases hnan : isNaN a = true
  · simp [clamp, larger, smaller, hnan]
  -- the number is first raised to `low`; the rest concerns the raised number only
  obtain ⟨r, hr, number, above⟩ : ∃ r, larger a low = r ∧ isNaN r = false ∧ larger r low = r := by
    by_cases hlt : low < a
    · exact ⟨a, by simp [larger, hlt], by simpa using hnan, by simp [larger, hlt]⟩
    · exact ⟨low, by simp [larger, hlt, hnan], lowNumber, by simp [larger, lt_irrefl, lowNumber]⟩
  by_cases hlt : r < high
  · simp [clamp, hr, smaller, hlt, number, above]
  · simp only [clamp, hr, smaller, number, hlt, decide_false, Bool.or_self, Bool.false_eq_true,
      if_false]
    by_cases hlh : low < high
    · simp [larger, hlh, lt_irrefl, highNumber]
    · -- both ends of the interval are equal, and the second operand of each choice is `high`
      have hr' : larger high low = low := by simp [larger, hlh, highNumber]
      simp [hr', hlh, lowNumber]

end Scalar

namespace Row

variable {α : Type}

@[simp]
theorem size_tabulate (n : Nat) (rule : Nat → α) : (tabulate n rule).size = n := by
  simp [tabulate]

/-- Rules that agree on the places of a vector give the same vector. -/
theorem tabulate_congr {n : Nat} {rule rule' : Nat → α} (h : ∀ j < n, rule j = rule' j) :
    tabulate n rule = tabulate n rule' := by
  apply Array.ext
  · simp
  · intro j hj _
    simp only [size_tabulate] at hj
    simpa [tabulate] using h j hj

variable [Scalar α]

/-- Every entry is a number. -/
def Numeric (x : Row α) : Prop :=
  ∀ j < x.size, Scalar.isNaN (x.gene j) = false

instance (x : Row α) : Decidable x.Numeric :=
  inferInstanceAs (Decidable (∀ j < x.size, Scalar.isNaN (x.gene j) = false))

theorem gene_tabulate (n : Nat) (rule : Nat → α) {j : Nat} (h : j < n) :
    (tabulate n rule).gene j = rule j := by
  simp [gene, tabulate, h]

end Row

namespace Bounds

/-- The unit interval as a box. -/
def unitInterval : Bounds Float :=
  ⟨#[0.0], #[1.0], rfl, by decide, by decide +kernel, by decide +kernel⟩

variable {α : Type} [Scalar α] (b : Bounds α)

@[simp]
theorem size_clip (x : Row α) : (b.clip x).size = b.dim := by
  simp [clip]

@[simp]
theorem size_clipRows (X : Rows α) : (b.clipRows X).size = X.size := by
  simp [clipRows]

variable [OrderedScalar α]

/-- A vector that has been moved into the box stays where it is. -/
@[simp]
theorem clip_clip (x : Row α) : b.clip (b.clip x) = b.clip x := by
  apply Row.tabulate_congr
  intro j hj
  rw [clip, Row.gene_tabulate _ _ hj]
  exact Scalar.clamp_clamp _ (b.ordered j hj)

@[simp]
theorem clipRows_clipRows (X : Rows α) : b.clipRows (b.clipRows X) = b.clipRows X := by
  simp [clipRows]

end Bounds

end BoxSearch
