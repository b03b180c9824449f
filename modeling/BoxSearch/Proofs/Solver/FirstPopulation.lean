import BoxSearch.Proofs.Kinship.Opening
import BoxSearch.Proofs.Run.Boxed

/-!
What a run starts from.

A population that comes with its fitness is checked, and a row outside the box fails the run before
it has begun. Rows without fitness are moved into the box instead. That brings in every number,
however far out it was, but what is not a number stays what it is, and is in no box.
-/

namespace BoxSearch

open Search

section Box

variable {α : Type} [Scalar α]

namespace Bounds

variable {b : Bounds α}

theorem holds_iff_inside {x : Row α} (size : x.size = b.dim) : b.holds x = true ↔ b.Inside x := by
  refine ⟨inside_of_holds size, fun inside => ?_⟩
  rw [holds, List.all_eq_true]
  intro j hj
  simpa using inside.2 j (List.mem_range.mp hj)

/-- Moving a vector to the box brings it inside if and only if it has no "not a number". -/
theorem inside_clip_iff [SignedScalar α] {x : Row α} (size : x.size = b.dim) :
    b.Inside (b.clip x) ↔ x.Numeric := by
  refine ⟨fun inside j hj => ?_, inside_clip⟩
  have below : j < b.dim := by rwa [← size]
  have number := inside.numeric j (by rwa [b.size_clip])
  rw [clip, Row.gene_tabulate _ _ below] at number
  cases nan : Scalar.isNaN (x.gene j) with
  | false => rfl
  | true => rwa [Scalar.clamp_eq_self nan, nan] at number

theorem holdsRows_clipRows [SignedScalar α] {X : Rows α} (width : ∀ x ∈ X, x.size = b.dim) :
    b.holdsRows (b.clipRows X) = true ↔ X.Numeric := by
  rw [holdsRows, Array.all_eq_true']
  constructor
  · intro holds x hx
    have moved := holds (b.clip x) (Array.mem_map_of_mem hx)
    rw [holds_iff_inside (b.size_clip x)] at moved
    exact (inside_clip_iff (width x hx)).mp moved
  · intro numeric x hx
    have inside := inside_clipRows numeric x hx
    exact (holds_iff_inside inside.1).mpr inside

end Bounds

/-- The rows that entries are cut into have all of them. -/
theorem Tensor.numeric_cut_iff {entries : Array α} {count width : Nat}
    (full : entries.size = count * width) :
    Rows.Numeric (cut count width entries) ↔ ∀ a ∈ entries, Scalar.isNaN a = false := by
  refine ⟨fun numeric a ha => ?_, fun h => numeric_cut h count width⟩
  obtain ⟨i, inside, rfl⟩ := Array.mem_iff_getElem.mp ha
  have positive : 0 < width := by
    rw [full] at inside
    exact Nat.pos_of_mul_pos_left (Nat.zero_lt_of_lt inside)
  have row : i / width < count := Nat.div_lt_of_lt_mul (by rwa [full, Nat.mul_comm] at inside)
  have place : i / width * width + i % width = i := Nat.div_add_mod' i width
  have below : i % width < width := Nat.mod_lt i positive
  have last : i / width * width + width ≤ entries.size := by
    rw [← Nat.succ_mul, full]
    exact Nat.mul_le_mul_right width row
  have here : Rows.row (cut count width entries) (i / width) =
      entries.extract (i / width * width) ((i / width + 1) * width) := by
    simp [Rows.row, cut, row]
  have size : (Rows.row (cut count width entries) (i / width)).size = width := by
    rw [here, Array.size_extract, Nat.succ_mul]
    omega
  have entry : (Rows.row (cut count width entries) (i / width)).gene (i % width) = entries[i] := by
    have within : i % width < (entries.extract (i / width * width) ((i / width + 1) * width)).size := by
      rwa [← here, size]
    rw [here, Row.gene, Array.getD, dif_pos within]
    simp [place]
  rw [← entry]
  exact Rows.numeric_row numeric _ _ (by rwa [size])

end Box

/-- A failure is of a kind, or of one that is more special. -/
def Error.IsOf (kind : Kind) (e : Error) : Prop :=
  ∃ special report, e.report? = some (special, report) ∧
    (special = kind ∨ special.parent = some kind)

theorem Error.isOf_configuration (issue : ConfigurationIssue) :
    (Error.configuration issue).IsOf .configuration :=
  ⟨_, _, rfl, .inl rfl⟩

theorem Error.isOf_parameter (name : String) (value : Value) (expected : String)
    (owner : Option String) : (Error.parameter name value expected owner).IsOf .configuration :=
  ⟨_, _, rfl, .inr rfl⟩

variable {σ P : Type}

namespace Population

/-- A population that fits in shape fails a check for an issue of configuration only. -/
theorem issue_of_check {X F : Tensor Float} {n : Int} {b : Bounds Float} {declared : Option Int}
    {e : Error} (h : check X F n b declared = .error e) : ∃ issue, e = .configuration issue := by
  rw [check] at h
  split at h
  · cases h
    exact ⟨_, rfl⟩
  split at h
  · split at h
    · cases h
      exact ⟨_, rfl⟩
    split at h
    · cases h
      exact ⟨_, rfl⟩
    split at h
    · cases h
      exact ⟨_, rfl⟩
    · cases h
  · cases h
    exact ⟨_, rfl⟩

theorem holdsRows_of_check {X F : Tensor Float} {n : Nat} {b : Bounds Float}
    {declared : Option Int} {p : Evaluated Float} (h : check X F n b declared = .ok p)
    (even : p.Even b.dim) : b.holdsRows p.X = true := by
  rw [Bounds.holdsRows, Array.all_eq_true']
  intro x hx
  have inside := inside_of_check h even x hx
  exact (Bounds.holds_iff_inside inside.1).mpr inside

theorem rows_of_check {X F : Tensor Float} {n : Nat} {b : Bounds Float} {declared : Option Int}
    {p : Evaluated Float} (h : check X F n b declared = .ok p) :
    p.X = Tensor.cut n b.dim X.entries := by
  obtain ⟨rows, -, size, -⟩ := of_check h
  rw [Tensor.rows?] at rows
  split at rows
  case h_1 count width shape =>
    obtain ⟨rfl, same⟩ := Prod.mk.inj (Option.some.inj rows)
    rw [← same, Tensor.size_cut] at size
    rw [← same, size]
  case h_2 => cases rows

theorem numbers_eq {v : Value} {t : Tensor Float} (h : v.toTensor = .ok t) : numbers v = .ok t := by
  rw [numbers, h]

end Population

namespace Initial

variable {s s₁ : Run Float P × Session σ} {pool : Tensor Float}

/-- To take over a population is to check it, and to go on with what passes. -/
theorem adopt_run (X F : Value) (s : Run Float P × Session σ) :
    (adopt X F : Search σ Float P Unit).run s =
      match Population.ofValues X F (.int s.1.popSize) s.1.bounds (declaredObjectives s.1) with
      | .ok p => (Search.seed p.X p.F p.width).run s
      | .error e => (.error e, s) := by
  rw [adopt, run_bind]
  change (Search.ofExcept (Population.ofValues X F (.int s.1.popSize) s.1.bounds
    (declaredObjectives s.1)) >>= _ : Search σ Float P Unit).run s = _
  rw [run_bind]
  cases Population.ofValues X F (.int s.1.popSize) s.1.bounds (declaredObjectives s.1) <;> rfl

/-- A sample of another shape than that of the population is refused. -/
theorem populate_misshaped {initializer : Initializer σ}
    (sampled : (sample initializer).run s = (.ok pool, s₁))
    (shape : pool.shape ≠ [s₁.1.popSize, s₁.1.dim]) : ∃ issue,
      (populate initializer).run s = (.error (.configuration issue), s₁) := by
  have differs : (pool.shape != [s₁.1.popSize, s₁.1.dim]) = true := by simpa using shape
  refine ⟨.initializerShape pool.dims ([s₁.1.popSize, s₁.1.dim].map Int.ofNat), ?_⟩
  rw [populate, run_bind, sampled]
  change (if pool.shape != [s₁.1.popSize, s₁.1.dim] then _ else _ : Search σ Float P Unit).run s₁ = _
  rw [if_pos differs]
  rfl

/-- A sample of the right shape is cut into rows, and these are moved into the box. -/
theorem populate_shaped {initializer : Initializer σ}
    (sampled : (sample initializer).run s = (.ok pool, s₁))
    (full : pool.entries.size = s₁.1.popSize * s₁.1.dim)
    (shape : pool.shape = [s₁.1.popSize, s₁.1.dim]) :
    (populate initializer).run s = (.ok (),
      (s₁.1.moveAll (Tensor.cut s₁.1.popSize s₁.1.dim pool.entries), s₁.2)) := by
  have same : ¬(pool.shape != [s₁.1.popSize, s₁.1.dim]) = true := by simp [shape]
  have cut : pool.rowsExactly s₁.1.popSize s₁.1.dim =
      .ok (Tensor.cut s₁.1.popSize s₁.1.dim pool.entries) := by
    simp [Tensor.rowsExactly, full]
  rw [populate, run_bind, sampled]
  change (if pool.shape != [s₁.1.popSize, s₁.1.dim] then _ else _ : Search σ Float P Unit).run s₁ = _
  rw [if_neg same]
  change (Search.ofExcept (pool.rowsExactly s₁.1.popSize s₁.1.dim) >>= _ :
    Search σ Float P Unit).run s₁ = _
  rw [cut, run_bind]
  rfl

end Initial

namespace Opening

variable {o : Opening σ} {run : Run Float P} {positions fitness pool : Tensor Float}
  {s : Run Float P × Session σ}

/-- A size and a seed that are numbers are refused for what they are, if at all. -/
theorem start_fails {fresh : Nat} {n : Int} {seed : Nat} (size : o.popSize = .int n)
    (seeded : seedOf fresh o.seed = .ok seed) {e : Error}
    (h : (o.start fresh : Except Error (Run Float P)) = .error e) : e.IsOf .configuration := by
  have sized : Run.popSizeOf (.int n) =
      if n ≤ 1 then .error (.parameter "pop_size" (.int n) "an integer > 1" none)
        else .ok n.toNat := rfl
  rw [start] at h
  split at h
  · cases h
    exact Error.isOf_configuration _
  rw [seeded, size, sized] at h
  split at h
  · cases h
    exact Error.isOf_parameter _ _ _ _
  · cases h

/-- A population that comes with its fitness is taken over as it is, and then lies in the box, or is
refused. -/
theorem adopted (given : ∃ pair X F, o.population = some pair ∧ pair.parts? = some [X, F] ∧
      X.toTensor = .ok positions ∧ F.toTensor = .ok fitness)
    (untracked : s.1.tracker = none)
    (limit : ∃ limit, Front.limitOf s.1.frontLimit = .ok limit) :
    (∃ issue, o.populate.run s = (.error (.configuration issue), s)) ∨
      ∃ s', o.populate.run s = (.ok (), s') ∧
        s'.1.X = Tensor.cut s.1.popSize s.1.dim positions.entries ∧
        s.1.bounds.holdsRows s'.1.X = true := by
  obtain ⟨pair, X, F, given, parts, readX, readF⟩ := given
  have declared : Initial.declaredObjectives s.1 = s.1.nObj := by
    rw [Initial.declaredObjectives, untracked]
    rfl
  have read : Population.ofValues X F (.int s.1.popSize) s.1.bounds s.1.nObj =
      Population.check positions fitness s.1.popSize s.1.bounds s.1.nObj := by
    rw [Population.ofValues, Population.numbers_eq readX, Population.numbers_eq readF]
    rfl
  rw [populate, given]
  simp only [Initial.adoptPair, parts]
  rw [Initial.adopt_run, declared, read]
  cases checked : Population.check positions fitness s.1.popSize s.1.bounds s.1.nObj with
  | error e =>
    obtain ⟨issue, rfl⟩ := Population.issue_of_check checked
    exact .inl ⟨issue, rfl⟩
  | ok p =>
    have even := Population.even_of_check (Value.size_toTensor readX) (Value.size_toTensor readF)
      checked
    obtain ⟨_, s', seeded, -, t, -, same⟩ := exists_of_ends (seed_ends untracked
      (Population.width_of_check checked).2 (.inr limit) p.X p.F)
    refine .inr ⟨s', seeded, ?_, ?_⟩
    · rw [same]
      exact Population.rows_of_check checked
    · rw [same]
      exact Population.holdsRows_of_check checked even

/-- A sample of the right shape is moved into the box, and then lies there if and only if it has no
"not a number". -/
theorem sampled_moved (cold : o.population = none) {s₁ : Run Float P × Session σ}
    (sampled : (Initial.sample (o.initializer.getD .uniform)).run s = (.ok pool, s₁))
    (full : pool.entries.size = Tensor.places pool.shape) (size : s.1.X.size = s.1.popSize)
    (shape : pool.shape = [s.1.popSize, s.1.dim]) :
    ∃ s', o.populate.run s = (.ok (), s') ∧
      s'.1.X = s.1.bounds.clipRows (Tensor.cut s.1.popSize s.1.dim pool.entries) ∧
      (s.1.bounds.holdsRows s'.1.X = true ↔ pool.Numeric) := by
  obtain ⟨streams, same⟩ := Initial.sample_redrawn _ _ _ sampled
  have entries : pool.entries.size = s.1.popSize * s.1.dim := by
    rw [full, shape, Tensor.places_cons, Tensor.places_cons, Tensor.places]
    simp
  have bounds : s₁.1.bounds = s.1.bounds := by rw [same]
  have moved : (s₁.1.moveAll (Tensor.cut s.1.popSize s.1.dim pool.entries)).X =
      s.1.bounds.clipRows (Tensor.cut s.1.popSize s.1.dim pool.entries) := by
    rw [same]
    refine writeAt_range size ?_
    rw [Bounds.size_clipRows, Tensor.size_cut]
  have populated := Initial.populate_shaped sampled (by rw [same]; exact entries)
    (by rw [same]; exact shape)
  rw [populate, cold]
  rw [show s₁.1.popSize = s.1.popSize by rw [same], show s₁.1.dim = s.1.dim by rw [same]; rfl]
    at populated
  refine ⟨_, populated, moved, ?_⟩
  rw [moved, Bounds.holdsRows_clipRows, Tensor.numeric_cut_iff entries]
  · rfl
  · intro x hx
    exact Tensor.even_cut (Nat.le_of_eq entries.symm) x (Array.mem_toList_iff.mpr hx)

/-- What a run starts from. A size or a pair of sources that makes no sense is refused as an issue of
configuration, and so is a population whose shape is wrong. Rows that come with their fitness are
refused if one of them is outside the box, and else taken over as they are. Rows without fitness, an
array with an entry for every place, are moved to the box; afterwards all of them are inside if and
only if none had a "not a number". -/
theorem first_population {o : Opening σ} {fresh : Nat} {n : Int} {seed : Nat} {limit : Option Nat}
    (size : o.popSize = .int n) (seeded : seedOf fresh o.seed = .ok seed)
    (limited : Front.limitOf o.frontLimit = .ok limit) :
    (∃ e, (o.start fresh : Except Error (Run Float P)) = .error e ∧ e.IsOf .configuration) ∨
    ∃ run : Run Float P, o.start fresh = .ok run ∧ ∀ session : Session σ,
      (∀ pair X F positions fitness, o.population = some pair → pair.parts? = some [X, F] →
        X.toTensor = .ok positions → F.toTensor = .ok fitness →
        (∃ e, o.populate.run (run, session) = (.error e, (run, session)) ∧
          e.IsOf .configuration) ∨
        ∃ s', o.populate.run (run, session) = (.ok (), s') ∧
          s'.1.X = Tensor.cut run.popSize run.dim positions.entries ∧
          run.bounds.holdsRows s'.1.X = true) ∧
      ∀ pool s₁, o.population = none →
        (Initial.sample (o.initializer.getD .uniform)).run (run, session) = (.ok pool, s₁) →
        pool.entries.size = Tensor.places pool.shape →
        (pool.shape ≠ [run.popSize, run.dim] → ∃ e,
          o.populate.run (run, session) = (.error e, s₁) ∧ e.IsOf .configuration) ∧
        (pool.shape = [run.popSize, run.dim] → ∃ s',
          o.populate.run (run, session) = (.ok (), s') ∧
          s'.1.X = run.bounds.clipRows (Tensor.cut run.popSize run.dim pool.entries) ∧
          (run.bounds.holdsRows s'.1.X = true ↔ pool.Numeric)) := by
  cases started : (o.start fresh : Except Error (Run Float P)) with
  | error e => exact .inl ⟨e, rfl, start_fails size seeded started⟩
  | ok run =>
    obtain ⟨k, seed, -, rfl⟩ := start_eq started
    refine .inr ⟨_, rfl, fun session => ⟨?_, fun pool s₁ cold sampled full => ⟨?_, ?_⟩⟩⟩
    · intro pair X F positions fitness given parts readX readF
      rcases adopted (s := (.start o.bounds k o.nObj o.frontLimit seed, session))
        ⟨pair, X, F, given, parts, readX, readF⟩ rfl ⟨limit, limited⟩ with ⟨issue, refused⟩ | taken
      · exact .inl ⟨_, refused, Error.isOf_configuration issue⟩
      · exact .inr taken
    · intro shape
      obtain ⟨streams, same⟩ := Initial.sample_redrawn _ _ _ sampled
      have misshaped : pool.shape ≠ [s₁.1.popSize, s₁.1.dim] := by
        rw [same]
        exact shape
      obtain ⟨issue, refused⟩ := Initial.populate_misshaped sampled misshaped
      rw [populate, cold]
      exact ⟨_, refused, Error.isOf_configuration issue⟩
    · exact sampled_moved (s := (_, session)) cold sampled full Array.size_replicate

/-- Two rows to start from in the unit interval. -/
def ofRows (rows : Value) : Opening Unit where
  bounds := .unitInterval
  nObj := none
  popSize := .int 2
  seed := .int 0
  frontLimit := .absent
  initializer := some (.custom (ExceptT.mk fun s => (.ok rows, s)))
  population := none

/-- An infinite number is moved to the border. -/
theorem first_population_infinite : ∃ (run : Run Float Value) (s' : Run Float Value × Session Unit),
    (ofRows (.list [.list [.float (1.0 / 0.0)], .list [.float 0.5]])).start 0 = .ok run ∧
    (ofRows (.list [.list [.float (1.0 / 0.0)], .list [.float 0.5]])).populate.run (run, ⟨(), #[]⟩) =
      (.ok (), s') ∧ run.bounds.holdsRows s'.1.X = true := by
  rcases @first_population Unit Value
    (ofRows (.list [.list [.float (1.0 / 0.0)], .list [.float 0.5]])) 0 2 0 none rfl rfl rfl with
    ⟨e, failed, -⟩ | ⟨run, started, outcome⟩
  · cases failed
  cases started
  obtain ⟨-, moved⟩ := outcome ⟨(), #[]⟩
  obtain ⟨-, shaped⟩ := moved ⟨[2, 1], #[1.0 / 0.0, 0.5]⟩ _ rfl rfl rfl
  obtain ⟨s', populated, -, inside⟩ := shaped rfl
  exact ⟨_, s', rfl, populated, inside.mpr (by decide +kernel)⟩

/-- What is not a number is installed, and then is in no box. The same rows are refused if they come
with their fitness. -/
theorem nan_installed : ∃ (run : Run Float Value) (s' : Run Float Value × Session Unit),
    (ofRows (.list [.list [.float (0.0 / 0.0)], .list [.float 0.5]])).start 0 = .ok run ∧
    (ofRows (.list [.list [.float (0.0 / 0.0)], .list [.float 0.5]])).populate.run (run, ⟨(), #[]⟩) =
      (.ok (), s') ∧ run.bounds.holdsRows s'.1.X = false ∧
    ∃ issue, Population.check ⟨[2, 1], #[0.0 / 0.0, 0.5]⟩ ⟨[2], #[0.0, 0.0]⟩ 2 run.bounds none =
      .error (.configuration issue) := by
  let nan := ofRows (.list [.list [.float (0.0 / 0.0)], .list [.float 0.5]])
  let run : Run Float Value := .start .unitInterval 2 none .absent 0
  have populates : (nan.populate.run (run, ⟨(), #[]⟩)).1.toBool = true := by decide +kernel
  have fails : (Population.check ⟨[2, 1], #[0.0 / 0.0, 0.5]⟩ ⟨[2], #[0.0, 0.0]⟩ 2 run.bounds
      none).toBool = false := by decide +kernel
  refine ⟨run, _, rfl, Plan.run_eq_ok populates, by decide +kernel, ?_⟩
  cases checked : Population.check ⟨[2, 1], #[0.0 / 0.0, 0.5]⟩ ⟨[2], #[0.0, 0.0]⟩ 2 run.bounds none with
  | error e =>
    obtain ⟨issue, rfl⟩ := Population.issue_of_check checked
    exact ⟨issue, rfl⟩
  | ok p =>
    rw [checked] at fails
    cases fails

end Opening

end BoxSearch
