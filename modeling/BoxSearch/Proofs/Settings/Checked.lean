import BoxSearch.Proofs.Except
import BoxSearch.Proofs.Scalar.Value
import BoxSearch.Settings.Family

/-!
Settings that passed the checks of their family.

However settings are asked for, what a strategy is built with was read from a record, and a
population that was read has two members at least, the donors of a formula beside the individual
itself, and a decay that never grows.
-/

namespace BoxSearch

namespace Settings

/-- The settings are what their family makes of some record. -/
def Checked (s : Settings) : Prop :=
  ∃ record, s.family.read record = .ok s

theorem Given.popSize_cases {g : Given} {default minimum n : Nat}
    (h : g.popSize default minimum = .ok n) : n = default ∨ max 2 minimum ≤ n := by
  rw [popSize] at h
  split at h
  case h_1 =>
    cases h
    exact .inl rfl
  case h_2 raw _ =>
    dsimp only at h
    split at h
    case h_1 k _ =>
      by_cases small : k < ↑(max 2 minimum)
      · rw [if_pos small] at h
        cases h
      · rw [if_neg small] at h
        cases h
        omega
    case h_2 => cases h

theorem Given.le_popSize {g : Given} {default minimum n : Nat} (large : 2 ≤ default)
    (h : g.popSize default minimum = .ok n) : 2 ≤ n := by
  have cases := popSize_cases h
  omega

theorem two_le_genetic {record : Record} {s : Genetic.Settings}
    (h : Genetic.Settings.read record = .ok s) : 2 ≤ s.popSize := by
  obtain ⟨n, size, h⟩ := of_bind h
  obtain ⟨_, -, h⟩ := of_bind h
  obtain ⟨_, -, h⟩ := of_bind h
  obtain ⟨_, -, h⟩ := of_bind h
  obtain ⟨_, -, h⟩ := of_bind h
  obtain ⟨_, -, h⟩ := of_bind h
  obtain ⟨_, -, h⟩ := of_bind h
  obtain ⟨_, -, h⟩ := of_bind h
  obtain ⟨_, -, h⟩ := of_bind h
  cases h
  exact Given.le_popSize (by decide) size

theorem two_le_differential {record : Record} {s : Differential.Settings}
    (h : Differential.Settings.read record = .ok s) : 2 ≤ s.popSize := by
  obtain ⟨_, -, h⟩ := of_bind h
  obtain ⟨_, -, h⟩ := of_bind h
  obtain ⟨n, size, h⟩ := of_bind h
  obtain ⟨_, -, h⟩ := of_bind h
  obtain ⟨_, -, h⟩ := of_bind h
  cases h
  exact Given.le_popSize (by decide) size

theorem two_le_swarm {record : Record} {s : Swarm.Settings}
    (h : Swarm.Settings.read record = .ok s) : 2 ≤ s.popSize := by
  obtain ⟨n, size, h⟩ := of_bind h
  obtain ⟨_, -, h⟩ := of_bind h
  obtain ⟨_, -, h⟩ := of_bind h
  obtain ⟨_, -, h⟩ := of_bind h
  obtain ⟨_, -, h⟩ := of_bind h
  cases h
  exact Given.le_popSize (by decide) size

theorem two_le_firefly {record : Record} {s : Firefly.Settings}
    (h : Firefly.Settings.read record = .ok s) : 2 ≤ s.popSize := by
  obtain ⟨n, size, h⟩ := of_bind h
  obtain ⟨_, -, h⟩ := of_bind h
  obtain ⟨_, -, h⟩ := of_bind h
  obtain ⟨_, -, h⟩ := of_bind h
  obtain ⟨_, -, h⟩ := of_bind h
  cases h
  exact Given.le_popSize (by decide) size

theorem two_le_teaching {record : Record} {s : Teaching.Settings}
    (h : Teaching.Settings.read record = .ok s) : 2 ≤ s.popSize := by
  obtain ⟨n, size, h⟩ := of_bind h
  cases h
  exact Given.le_popSize (by decide) size

theorem two_le_of_read {f : Family} {record : Record} {s : Settings}
    (h : f.read record = .ok s) : 2 ≤ s.popSize := by
  cases f with
  | genetic =>
    obtain ⟨_, read, rfl⟩ := of_map h
    exact two_le_genetic read
  | differential =>
    obtain ⟨_, read, rfl⟩ := of_map h
    exact two_le_differential read
  | swarm =>
    obtain ⟨_, read, rfl⟩ := of_map h
    exact two_le_swarm read
  | firefly =>
    obtain ⟨_, read, rfl⟩ := of_map h
    exact two_le_firefly read
  | teaching =>
    obtain ⟨_, read, rfl⟩ := of_map h
    exact two_le_teaching read

/-- A population has two members at least. -/
theorem Checked.two_le_popSize {s : Settings} (h : s.Checked) : 2 ≤ s.popSize := by
  obtain ⟨_, read⟩ := h
  exact two_le_of_read read

theorem family_of_read {f : Family} {record : Record} {s : Settings}
    (h : f.read record = .ok s) : s.family = f := by
  cases f <;>
  · obtain ⟨_, -, rfl⟩ := of_map h
    rfl

theorem checked_of_ofRecord {f : Family} {record : Record} {s : Settings}
    (h : f.ofRecord record = .ok s) : s.Checked := by
  obtain ⟨_, -, read⟩ := of_bind h
  have same := family_of_read read
  exact ⟨record, by rw [same, read]⟩

theorem checked_override {s s' : Settings} {overrides : Record} (checked : s.Checked)
    (h : s.override overrides = .ok s') : s'.Checked := by
  rw [override] at h
  split at h
  case isTrue =>
    cases h
    exact checked
  case isFalse => exact checked_of_ofRecord h

/-- What is built is checked, provided that this is so for settings that were handed in. -/
theorem checked_of_build {request : Request} {overrides : Record} {built : Built}
    (ready : ∀ s, request = .strategy s ∨ request = .settings s → s.Checked)
    (h : build request overrides = .ok built) : built.settings.Checked := by
  cases request with
  | named name =>
    obtain ⟨f, -, h⟩ := of_bind h
    obtain ⟨s, made, h⟩ := of_bind h
    cases h
    exact checked_of_ofRecord made
  | strategy s =>
    rw [build] at h
    split at h
    case isTrue =>
      cases h
      exact ready s (.inl rfl)
    case isFalse =>
      obtain ⟨s', made, rfl⟩ := of_map h
      exact checked_override (ready s (.inl rfl)) made
  | settings s =>
    obtain ⟨s', made, rfl⟩ := of_map h
    exact checked_override (ready s (.inr rfl)) made
  | other type => cases h

theorem Given.number_of_finite {g : Given} {key : String} {raw : Value} {x : Float}
    (h : g.finite key raw = .ok x) : x ≤ x := by
  rw [finite] at h
  split at h
  · cases h
  · cases h
  · split at h
    · cases h
    · split at h
      case isTrue finite =>
        cases h
        exact Binary.le_self_of_isFinite finite
      case isFalse => cases h

/-- A number that was read as positive and limited is so, provided that the default is. -/
theorem Given.number_upTo {g : Given} {key : String} {default limit x : Float}
    (usual : 0.0 < default ∧ default ≤ limit)
    (h : g.number key default (.upTo limit) = .ok x) : 0.0 < x ∧ x ≤ limit := by
  rw [number] at h
  split at h
  case h_1 =>
    cases h
    exact usual
  case h_2 raw _ =>
    obtain ⟨y, read, h⟩ := of_bind h
    have number := number_of_finite read
    have zero : (0.0 : Float) ≤ 0.0 := by decide +kernel
    have bound : limit ≤ limit := (OrderedScalar.le_self_of_le usual.2).2
    dsimp only [Range.upTo] at h
    by_cases low : y ≤ 0.0
    · simp [low, reject] at h
    by_cases high : limit < y
    · simp [low, high, reject] at h
    simp only [low, high, decide_false, Bool.and_false, Bool.false_eq_true, if_false,
      Bool.false_and] at h
    cases h
    refine ⟨(Scalar.lt_or_le zero number).resolve_right low, ?_⟩
    exact (Scalar.lt_or_le bound number).resolve_left high

/-- The donors of the chosen formula, and the individual itself, fit into the population. -/
theorem Checked.donors_lt_popSize {s : Differential.Settings}
    (h : (Settings.differential s).Checked) : s.mutant.donors + 1 ≤ s.popSize := by
  obtain ⟨record, read⟩ := h
  obtain ⟨s', read, same⟩ := of_map read
  cases same
  obtain ⟨mutant, -, read⟩ := of_bind read
  obtain ⟨crossover, -, read⟩ := of_bind read
  obtain ⟨n, size, read⟩ := of_bind read
  obtain ⟨_, -, read⟩ := of_bind read
  obtain ⟨_, -, read⟩ := of_bind read
  cases read
  have usual : mutant.donors + 1 ≤ 200 := by cases mutant <;> decide
  have cases := Given.popSize_cases size
  dsimp only at cases ⊢
  omega

/-- The random steps of fireflies never grow. -/
theorem Checked.alphaDecay_mem {s : Firefly.Settings} (h : (Settings.firefly s).Checked) :
    0.0 < s.alphaDecay ∧ s.alphaDecay ≤ 1.0 := by
  obtain ⟨record, read⟩ := h
  obtain ⟨s', read, same⟩ := of_map read
  cases same
  obtain ⟨_, -, read⟩ := of_bind read
  obtain ⟨_, -, read⟩ := of_bind read
  obtain ⟨_, -, read⟩ := of_bind read
  obtain ⟨_, -, read⟩ := of_bind read
  obtain ⟨decay, found, read⟩ := of_bind read
  cases read
  exact Given.number_upTo (by decide +kernel) found

/-- The largest velocity is a part of the box, and not nothing. -/
theorem Checked.vmaxFraction_mem {s : Swarm.Settings} (h : (Settings.swarm s).Checked) :
    0.0 < s.vmaxFraction ∧ s.vmaxFraction ≤ 1.0 := by
  obtain ⟨record, read⟩ := h
  obtain ⟨s', read, same⟩ := of_map read
  cases same
  obtain ⟨_, -, read⟩ := of_bind read
  obtain ⟨_, -, read⟩ := of_bind read
  obtain ⟨_, -, read⟩ := of_bind read
  obtain ⟨_, -, read⟩ := of_bind read
  obtain ⟨fraction, found, read⟩ := of_bind read
  cases read
  exact Given.number_upTo (by decide +kernel) found

end Settings

end BoxSearch
