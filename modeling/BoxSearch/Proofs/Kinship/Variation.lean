import BoxSearch.Proofs.Kinship.Rows
import BoxSearch.Proofs.Run.Alongside
import BoxSearch.Variation

/-!
Variation of kin vectors.

From the same draws the operators make kin vectors of kin vectors. Where an operator divides or
takes a power, the numbers are the same: they are positive, or sums with a positive number.
-/

namespace BoxSearch.Variation

open Scalar

variable {R : Float → Float → Prop} [Kinship R] {p p' q q' : Row Float}

theorem zero_lt_negligible : (zero : Float) < negligible := by
  decide +kernel

/-- The children's genes in one place of simulated binary crossover. -/
theorem simulatedBinary_kin (lower upper : Row Float) (eta share : Float)
    (draws : CrossDraws Float) (hp : Related R p p') (hq : Related R q q') :
    Related R (simulatedBinary lower upper eta share draws p q).1
        (simulatedBinary lower upper eta share draws p' q').1 ∧
      Related R (simulatedBinary lower upper eta share draws p q).2
        (simulatedBinary lower upper eta share draws p' q').2 := by
  unfold simulatedBinary
  extract_lets n half gene n' gene'
  have same : n = n' := hp.size_eq
  have each (j : Nat) : R (gene j).1 (gene' j).1 ∧ R (gene j).2 (gene' j).2 := by
    have low := smaller_kin (hp.gene j) (hq.gene j)
    have high := larger_kin (hp.gene j) (hq.gene j)
    simp only [gene, gene']
    generalize smaller (p.gene j) (q.gene j) = a at low ⊢
    generalize smaller (p'.gene j) (q'.gene j) = a' at low ⊢
    generalize larger (p.gene j) (q.gene j) = b at high ⊢
    generalize larger (p'.gene j) (q'.gene j) = b' at high ⊢
    have gap := Kinship.sub high low
    simp only [(Akin.refl negligible).lt_iff (Kinship.akin gap)]
    split
    case isTrue crossed =>
      rw [Bool.and_eq_true, decide_eq_true_eq, decide_eq_true_eq] at crossed
      -- genes that differ by more than nothing are equally far apart on both sides
      have apart := ((Akin.refl _).lt_iff (Kinship.akin gap)).mpr crossed.1
      have same := (Kinship.akin gap).eq_of_pos (lt_trans zero_lt_negligible apart)
      have below : one + ofFloat 2.0 * (a - lower.gene j) / larger (b' - a') negligible =
          one + ofFloat 2.0 * (a' - lower.gene j) / larger (b' - a') negligible :=
        Binary.firm_one.add (Kinship.akin (Kinship.div _ (Kinship.mul (Kinship.refl _)
          (Kinship.sub low (Kinship.refl _)))))
      have above : one + ofFloat 2.0 * (upper.gene j - b) / larger (b' - a') negligible =
          one + ofFloat 2.0 * (upper.gene j - b') / larger (b' - a') negligible :=
        Binary.firm_one.add (Kinship.akin (Kinship.div _ (Kinship.mul (Kinship.refl _)
          (Kinship.sub (Kinship.refl _) high))))
      rw [same, below, above]
      have middle := Kinship.add low high
      have child {c c' : Float} (h : R c c') :
          R (clamp (half * c) (lower.gene j) (upper.gene j))
            (clamp (half * c') (lower.gene j) (upper.gene j)) :=
        clamp_kin (Kinship.mul (Kinship.refl _) h) (Kinship.refl _) (Kinship.refl _)
      split
      · exact ⟨child (Kinship.add middle (Kinship.refl _)),
          child (Kinship.sub middle (Kinship.refl _))⟩
      · exact ⟨child (Kinship.sub middle (Kinship.refl _)),
          child (Kinship.add middle (Kinship.refl _))⟩
    case isFalse => exact ⟨hp.gene j, hq.gene j⟩
  rw [same]
  exact ⟨.tabulate fun j _ => (each j).1, .tabulate fun j _ => (each j).2⟩

theorem blend_kin (lower upper : Row Float) (alpha : Float) (u v : Row Float) (hp : Related R p p')
    (hq : Related R q q') :
    Related R (blend lower upper alpha u v p q).1 (blend lower upper alpha u v p' q').1 ∧
      Related R (blend lower upper alpha u v p q).2 (blend lower upper alpha u v p' q').2 := by
  unfold blend
  extract_lets child child'
  have bred (u : Row Float) : Related R (child u) (child' u) := by
    simp only [child, child', hp.size_eq]
    refine .tabulate fun j _ => ?_
    have low := smaller_kin (hp.gene j) (hq.gene j)
    have high := larger_kin (hp.gene j) (hq.gene j)
    have margin := Kinship.mul (Kinship.refl (R := R) alpha) (Kinship.sub high low)
    have start := Kinship.sub low margin
    have span := Kinship.sub (Kinship.add high margin) start
    exact clamp_kin (Kinship.add start (Kinship.mul (Kinship.refl _) span)) (Kinship.refl _)
      (Kinship.refl _)
  exact ⟨bred u, bred v⟩

theorem hold_kin {x x' : Float} (h : R x x') (low high : Float) :
    R (hold x low high) (hold x' low high) := by
  have raised : R (if x < low then low else x) (if x' < low then low else x') := by
    simp only [(Kinship.akin h).lt_iff (.refl low)]
    split
    · exact Kinship.refl low
    · exact h
  rw [hold, hold]
  generalize (if x < low then low else x) = y at raised ⊢
  generalize (if x' < low then low else x') = y' at raised ⊢
  simp only [(Akin.refl high).lt_iff (Kinship.akin raised)]
  split
  · exact Kinship.refl high
  · exact raised

/-- A relative step depends on differences from one, which do not show the sign of a zero. -/
theorem polynomialStep_eq (eta u : Float) {below below' above above' : Float}
    (hb : Akin below below') (ha : Akin above above') :
    polynomialStep eta below above u = polynomialStep eta below' above' u := by
  have first : one - below = one - below' := Binary.firm_one.sub hb
  have second : one - above = one - above' := Binary.firm_one.sub ha
  rw [polynomialStep, polynomialStep, first, second]

theorem polynomial_kin {x x' : Row Float} (lower upper : Row Float) (rate eta : Float)
    (fires u : Row Float) (h : Related R x x') :
    Related R (polynomial lower upper rate eta fires u x)
      (polynomial lower upper rate eta fires u x') := by
  simp only [polynomial, h.size_eq]
  refine .tabulate fun j _ => ?_
  split
  · have below := Kinship.akin (Kinship.div (upper.gene j - lower.gene j)
      (Kinship.sub (h.gene j) (Kinship.refl (lower.gene j))))
    have above := Kinship.akin (Kinship.div (upper.gene j - lower.gene j)
      (Kinship.sub (Kinship.refl (upper.gene j)) (h.gene j)))
    rw [polynomialStep_eq eta (u.gene j) below above]
    exact hold_kin (Kinship.add (h.gene j) (Kinship.refl _)) _ _
  · exact h.gene j

theorem gaussian_kin {x x' : Row Float} (lower upper : Row Float) (rate sigma : Float)
    (fires noise : Row Float) (h : Related R x x') :
    Related R (gaussian lower upper rate sigma fires noise x)
      (gaussian lower upper rate sigma fires noise x') := by
  simp only [gaussian, h.size_eq]
  refine .tabulate fun j _ => clamp_kin ?_ (Kinship.refl _) (Kinship.refl _)
  split
  · exact Kinship.add (h.gene j) (Kinship.refl _)
  · exact h.gene j

section Draws

/-- Two pairs of vectors, one kin to the other. -/
abbrev PairKin (R : Float → Float → Prop) (p q : Row Float × Row Float) : Prop :=
  Related R p.1 q.1 ∧ Related R p.2 q.2

open Draw

theorem drawSimulatedBinary_kin (lower upper : Row Float) (eta share : Float)
    (hp : Related R p p') (hq : Related R q q') :
    Alongside Eq (PairKin R) (drawSimulatedBinary lower upper eta share p q : Draw _)
      (drawSimulatedBinary lower upper eta share p' q') := by
  rw [drawSimulatedBinary, drawSimulatedBinary, hp.size_eq]
  apply alongside_bind (alongside_self _)
  rintro takes _ rfl
  apply alongside_bind (alongside_self _)
  rintro spread _ rfl
  apply alongside_bind (alongside_self _)
  rintro swap _ rfl
  exact alongside_pure (simulatedBinary_kin lower upper eta share _ hp hq)

theorem drawBlend_kin (lower upper : Row Float) (alpha : Float)
    (hp : Related R p p') (hq : Related R q q') :
    Alongside Eq (PairKin R) (drawBlend lower upper alpha p q : Draw _)
      (drawBlend lower upper alpha p' q') := by
  rw [drawBlend, drawBlend, hp.size_eq]
  apply alongside_bind (alongside_self _)
  rintro u _ rfl
  apply alongside_bind (alongside_self _)
  rintro v _ rfl
  exact alongside_pure (blend_kin lower upper alpha u v hp hq)

theorem drawPolynomial_kin (lower upper : Row Float) (rate eta : Float) (hp : Related R p p') :
    Alongside Eq (Related R) (drawPolynomial lower upper rate eta p : Draw _)
      (drawPolynomial lower upper rate eta p') := by
  rw [drawPolynomial, drawPolynomial, hp.size_eq]
  apply alongside_bind (alongside_self _)
  rintro fires _ rfl
  apply alongside_bind (alongside_self _)
  rintro u _ rfl
  exact alongside_pure (polynomial_kin lower upper rate eta fires u hp)

theorem drawGaussian_kin (lower upper : Row Float) (rate sigma : Float) (hp : Related R p p') :
    Alongside Eq (Related R) (drawGaussian lower upper rate sigma p : Draw _)
      (drawGaussian lower upper rate sigma p') := by
  rw [drawGaussian, drawGaussian, hp.size_eq]
  apply alongside_bind (alongside_self _)
  rintro fires _ rfl
  apply alongside_bind (alongside_self _)
  rintro noise _ rfl
  exact alongside_pure (gaussian_kin lower upper rate sigma fires noise hp)

end Draws

end BoxSearch.Variation
