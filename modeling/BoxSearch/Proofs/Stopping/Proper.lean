import BoxSearch.Proofs.Except
import BoxSearch.Stopping.Source

/-!
Policies as they can be built.

Whatever a policy is built from, a bound on the number of generations is checked to be positive, so
that there is always a first generation.
-/

namespace BoxSearch

variable {σ : Type}

namespace Policy

/-- A bound on the number of generations, if there is one, allows for one generation at least. -/
def Proper (p : Policy σ Float) : Prop :=
  ∀ m, p.maxGenerations = some m → 1 ≤ m

theorem of_positive {setting owner : String} {v : Value} {n : Nat}
    (h : positive setting v owner = .ok n) : 1 ≤ n := by
  unfold positive at h
  split at h
  case h_1 k _ =>
    split at h
    case isTrue => cases h
    case isFalse large =>
      cases h
      omega
  case h_2 => cases h

theorem of_bound {v : Value} {owner : String} {b : Option Nat} (h : bound v owner = .ok b) :
    ∀ m, b = some m → 1 ≤ m := by
  rintro m rfl
  unfold bound at h
  split at h
  case h_1 => cases h
  case h_2 =>
    cases read : positive "max_generations" v owner with
    | error e =>
      rw [read] at h
      cases h
    | ok n =>
      rw [read] at h
      cases h
      exact of_positive read

variable {p : Policy σ Float}

theorem proper_ofGenerations {n : Value} (h : ofGenerations n = .ok p) : p.Proper := by
  obtain ⟨k, read, h⟩ := of_bind h
  cases h
  rintro m ⟨⟩
  exact of_positive read

theorem proper_ofPredicate {holds : Option (View Float → Call σ Value)} {given b : Value}
    (h : ofPredicate holds given b = .ok p) : p.Proper := by
  unfold ofPredicate at h
  split at h
  case h_1 => cases h
  case h_2 =>
    obtain ⟨b, read, h⟩ := of_bind h
    cases h
    exact of_bound read

theorem proper_ofThreshold {target b : Value} (h : ofThreshold target b = .ok p) : p.Proper := by
  obtain ⟨x, _, h⟩ := of_bind h
  dsimp only at h
  split at h
  case isTrue => cases h
  case isFalse =>
    obtain ⟨b, read, h⟩ := of_bind h
    cases h
    exact of_bound read

theorem proper_ofStall {generations tol b : Value} (h : ofStall generations tol b = .ok p) :
    p.Proper := by
  obtain ⟨b, read, h⟩ := of_bind h
  obtain ⟨n, _, h⟩ := of_bind h
  obtain ⟨x, _, h⟩ := of_bind h
  dsimp only at h
  split at h
  case isTrue => cases h
  case isFalse =>
    cases h
    exact of_bound read

theorem proper_ofTimeLimit {seconds b : Value} (h : ofTimeLimit seconds b = .ok p) :
    p.Proper := by
  obtain ⟨x, _, h⟩ := of_bind h
  dsimp only at h
  split at h
  case isTrue => cases h
  case isFalse =>
    obtain ⟨b, read, h⟩ := of_bind h
    cases h
    exact of_bound read

/-- However the arguments of a policy are given, its bound is checked. -/
theorem proper_ofArguments {kind : String} {args : List (Argument σ)}
    {named : List (String × Argument σ)} (h : ofArguments kind args named = .ok p) : p.Proper := by
  obtain ⟨given, _, h⟩ := of_bind h
  split at h
  case h_1 => exact proper_ofGenerations h
  case h_2 => exact proper_ofStall h
  case h_3 =>
    dsimp only at h
    split at h
    case isTrue => exact proper_ofThreshold h
    case isFalse =>
      split at h
      case isTrue => exact proper_ofTimeLimit h
      case isFalse => exact proper_ofPredicate h
  case h_4 => cases h

/-- What is not a ready policy becomes a proper one. -/
theorem proper_ofSource {source : Source σ} (ready : ∀ p, source = .ready p → p.Proper)
    (h : ofSource source = .ok p) : p.Proper := by
  unfold ofSource at h
  split at h
  case h_1 q =>
    cases h
    exact ready _ rfl
  case h_2 =>
    cases h
    rintro m ⟨⟩
  case h_3 => exact proper_ofGenerations h
  case h_4 => exact proper_ofGenerations h
  case h_5 kind v =>
    cases kind with
    | text name =>
      change (if (name == "max_gen" || name == "n_gen") = true then ofGenerations v
        else if (name == "min_fit") = true then ofThreshold v (.int safetyGenerations)
        else if (name == "time") = true then ofTimeLimit v .absent
        else if (name == "stall") = true then ofStall v (.float 0.0) .absent
        else _) = _ at h
      split at h
      case isTrue => exact proper_ofGenerations h
      case isFalse =>
        split at h
        case isTrue => exact proper_ofThreshold h
        case isFalse =>
          split at h
          case isTrue => exact proper_ofTimeLimit h
          case isFalse =>
            split at h
            case isTrue => exact proper_ofStall h
            case isFalse => cases h
    | _ => cases h
  case h_6 => cases h
  case h_7 => cases h

end Policy

end BoxSearch
