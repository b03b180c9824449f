import BoxSearch.Proofs.Random.Range
import BoxSearch.Strategy.Differential

/-!
Which genes a trial takes from its mutant.

Crossover draws an index and then unit numbers. The exponential one takes a run of genes that begins
at the index and closes up on the circle of all genes, as long as the numbers stay below the rate;
the binomial one takes the gene at the index and all those whose own number is below the rate.
-/

namespace BoxSearch.Differential

open Draw BoxSearch.Random

variable {dim start length limit j : Nat} {rate : Float} {draws : Nat → Float}

/-- The genes of a run of `length` genes from `start` on, the first gene following the last. -/
def circle (dim start length : Nat) : List Nat :=
  (List.range length).map fun k => (start + k) % dim

@[simp]
theorem length_circle (dim start length : Nat) : (circle dim start length).length = length := by
  simp [circle]

theorem inRun_iff : inRun dim start length j = true ↔ j ∈ circle dim start length := by
  simp [inRun, circle]

theorem lt_of_mem_circle (positive : 0 < dim) (member : j ∈ circle dim start length) : j < dim := by
  obtain ⟨k, -, rfl⟩ := List.mem_map.mp member
  exact Nat.mod_lt _ positive

theorem start_mem_circle (inside : start < dim) (some : 0 < length) :
    start ∈ circle dim start length :=
  List.mem_map.mpr ⟨0, List.mem_range.mpr some, Nat.mod_eq_of_lt inside⟩

/-- A run that is no longer than the circle meets no gene twice. -/
theorem nodup_circle (fits : length ≤ dim) : (circle dim start length).Nodup := by
  refine List.Nodup.map_on (fun a ha b hb same => ?_) List.nodup_range
  have near : a < dim ∧ b < dim :=
    ⟨(List.mem_range.mp ha).trans_le fits, (List.mem_range.mp hb).trans_le fits⟩
  have agree : a % dim = b % dim := Nat.ModEq.add_left_cancel' start same
  rwa [Nat.mod_eq_of_lt near.1, Nat.mod_eq_of_lt near.2] at agree

/-- How many of the first `limit` numbers come before one that is not below `rate`. -/
def leading (rate : Float) (limit : Nat) (draws : Nat → Float) : Nat :=
  ((List.range limit).takeWhile fun k => decide (draws k < rate)).length

theorem leading_succ (rate : Float) (limit : Nat) (draws : Nat → Float) :
    leading rate (limit + 1) draws =
      if draws 0 < rate then leading rate limit (fun k => draws (k + 1)) + 1 else 0 := by
  rw [leading, List.range_succ_eq_map, List.takeWhile_cons, List.takeWhile_map]
  split <;> simp_all [leading, Function.comp_def]

theorem leading_le (rate : Float) (limit : Nat) (draws : Nat → Float) :
    leading rate limit draws ≤ limit :=
  (List.takeWhile_sublist _).length_le.trans_eq List.length_range

theorem below_of_lt_leading (early : j < leading rate limit draws) : draws j < rate := by
  induction limit generalizing j draws with
  | zero => exact absurd early (Nat.not_lt_zero _)
  | succ limit ih =>
    rw [leading_succ] at early
    split at early
    case isTrue first =>
      cases j with
      | zero => exact first
      | succ j =>
        have below := ih (Nat.lt_of_succ_lt_succ early)
        exact below
    case isFalse => exact absurd early (Nat.not_lt_zero _)

theorem not_below_leading (stopped : leading rate limit draws < limit) :
    ¬draws (leading rate limit draws) < rate := by
  induction limit generalizing draws with
  | zero => exact absurd stopped (Nat.not_lt_zero _)
  | succ limit ih =>
    rw [leading_succ] at stopped ⊢
    split at stopped
    case isTrue first =>
      have above := ih (Nat.lt_of_succ_lt_succ stopped)
      rwa [if_pos first]
    case isFalse first => rwa [if_neg first]

/-- The length of a run is settled by the numbers that the stream holds: one number is taken for
every gene that the run grows by, and one more if it stops before the limit. -/
theorem run_runLength (rate : Float) (limit : Nat) (g : Generator) :
    (runLength rate limit).run g =
      (.ok (leading rate limit g.units + 1),
        g.ahead (min (leading rate limit g.units + 1) limit)) := by
  induction limit generalizing g with
  | zero => rfl
  | succ limit ih =>
    have drawn : (chance rate).run g = (.ok (decide (g.units 0 < rate)), g.unit.2) := by
      rw [Generator.units_zero]
      rfl
    have rest : (fun k => g.units (k + 1)) = g.unit.2.units := funext g.units_succ
    rw [runLength, run_bind, drawn, leading_succ, rest]
    by_cases longer : g.units 0 < rate
    · rw [if_pos longer, Nat.succ_min_succ, g.ahead_succ]
      simp only [longer, decide_true, if_true, run_bind, ih]
      rfl
    · rw [if_neg longer, Nat.zero_add, Nat.min_eq_left (Nat.succ_pos _), g.ahead_succ]
      simp only [longer, decide_false, if_false, Bool.false_eq_true]
      rfl

/-- The genes that an index and a sequence of unit numbers stand for. -/
def takesBy (s : Settings) (dim first : Nat) (draws : Nat → Float) : Nat → Bool :=
  match s.crossover with
  | .exponential => inRun dim first (leading s.cross (dim - 1) draws + 1)
  | .binomial => fun j => j == first || decide (draws j < s.cross)

/-- How many unit numbers are looked at. -/
def looked (s : Settings) (dim : Nat) (draws : Nat → Float) : Nat :=
  match s.crossover with
  | .exponential => min (leading s.cross (dim - 1) draws + 1) (dim - 1)
  | .binomial => dim

/-- An index is drawn, and the unit numbers that the stream holds after it settle the genes. -/
theorem run_drawTakes (s : Settings) (positive : 0 < dim) (short : dim ≤ 2 ^ 63) (g : Generator) :
    ∃ first g₁ takes, (index dim).run g = (.ok first, g₁) ∧ first < dim ∧
      (drawTakes s dim).run g = (.ok takes, g₁.ahead (looked s dim g₁.units)) ∧
      ∀ j < dim, takes j = takesBy s dim first g₁.units j := by
  obtain ⟨first, g₁, drawn, -⟩ := succeeds_index (n := dim) (by omega) (by omega) g
  have drawn : (index dim).run g = (.ok first, g₁) := drawn
  have inside : first < dim := lt_of_index positive drawn
  unfold drawTakes looked takesBy
  cases s.crossover with
  | exponential =>
    refine ⟨first, g₁, _, drawn, inside, ?_, fun _ _ => rfl⟩
    simp only [run_bind, drawn, run_runLength]
    rfl
  | binomial =>
    let own := Row.tabulate dim g₁.units
    refine ⟨first, g₁, fun j => j == first || decide (own.getD j 0.0 < s.cross), drawn, inside, ?_,
      fun j hj => ?_⟩
    · simp only [run_bind, drawn, times_unit]
      rfl
    · have number : own.getD j 0.0 = g₁.units j := Row.gene_tabulate _ _ hj
      simp only [number]

/-- Whatever the target and the mutant are, the trial has the genes of the mutant where `picked`
says so and those of the target elsewhere. -/
def Splices (takes : Nat → Bool) (dim : Nat) (picked : Nat → Prop) : Prop :=
  ∀ {α : Type} [Scalar α] (x mutant : Row α), x.size = dim →
    (crossed takes x mutant).size = dim ∧ ∀ j < dim,
      (picked j → (crossed takes x mutant).gene j = mutant.gene j) ∧
        (¬picked j → (crossed takes x mutant).gene j = x.gene j)

theorem splices {takes : Nat → Bool} {picked : Nat → Prop}
    (agree : ∀ j < dim, takes j = true ↔ picked j) : Splices takes dim picked := by
  intro α _ x mutant size
  refine ⟨(Row.size_tabulate _ _).trans size, fun j hj => ?_⟩
  have gene : (crossed takes x mutant).gene j = if takes j then mutant.gene j else x.gene j :=
    Row.gene_tabulate _ _ (size ▸ hj)
  rw [gene, ← agree j hj]
  exact ⟨fun taken => if_pos taken, fun kept => if_neg kept⟩

/-- What the settings say of the genes that are taken, given the index and the unit numbers. -/
structure Crosses (s : Settings) (dim first : Nat) (draws : Nat → Float) (takes : Nat → Bool) :
    Prop where
  /-- The run begins at the index and grows by one for every number below the rate, from the first
  number on, until it has met every gene. -/
  exponential : s.crossover = .exponential → ∃ length, 1 ≤ length ∧ length ≤ dim ∧
    (circle dim first length).length = length ∧ (circle dim first length).Nodup ∧
    (∀ j ∈ circle dim first length, j < dim) ∧ Splices takes dim (· ∈ circle dim first length) ∧
    (∀ k < length - 1, draws k < s.cross) ∧ (length < dim → ¬draws (length - 1) < s.cross) ∧
    (s.cross == 0.0 → length = 1) ∧ (s.cross == 1.0 → length = dim)
  /-- Every gene has its own number, and the one at the index needs none. -/
  binomial : s.crossover = .binomial → Splices takes dim fun j => j = first ∨ draws j < s.cross
  /-- Some gene is the mutant's. -/
  some : ∃ j < dim, ∀ {α : Type} [Scalar α] (x mutant : Row α), x.size = dim →
    (crossed takes x mutant).gene j = mutant.gene j

/-- The run that is taken when numbers of `[0, 1)` are drawn. -/
theorem exists_run (rate : Float) (positive : 0 < dim)
    (range : ∀ k, 0.0 ≤ draws k ∧ draws k < 1.0) :
    let length := leading rate (dim - 1) draws + 1
    length ≤ dim ∧ (length < dim → ¬draws (length - 1) < rate) ∧
      (rate == 0.0 → length = 1) ∧ (rate == 1.0 → length = dim) := by
  have limit := leading_le rate (dim - 1) draws
  dsimp only
  refine ⟨by omega, fun short => not_below_leading (by omega), fun zero => ?_, fun one => ?_⟩
  · -- no number is below zero
    by_contra longer
    have grown : 0 < leading rate (dim - 1) draws := by omega
    have below := below_of_lt_leading grown
    have lowest := (OrderedScalar.beq_iff.mp zero).1
    exact Scalar.not_le_of_lt below (OrderedScalar.le_trans lowest (range 0).1)
  · -- every number is below one
    by_contra shorter
    have stopped : leading rate (dim - 1) draws < dim - 1 := by omega
    have highest := (OrderedScalar.beq_iff.mp one).2
    exact not_below_leading stopped (Scalar.lt_of_lt_of_le (range _).2 highest)

theorem crosses_of_takesBy (s : Settings) {first : Nat} (inside : first < dim)
    (range : ∀ k, 0.0 ≤ draws k ∧ draws k < 1.0) {takes : Nat → Bool}
    (agree : ∀ j < dim, takes j = takesBy s dim first draws j) :
    Crosses s dim first draws takes := by
  have positive : 0 < dim := (Nat.zero_le _).trans_lt inside
  refine ⟨fun exponential => ?_, fun binomial => ?_, first, inside, fun x mutant size => ?_⟩
  · obtain ⟨fits, stopped, least, greatest⟩ := exists_run s.cross positive range
    refine ⟨_, Nat.succ_pos _, fits, length_circle _ _ _, nodup_circle fits,
      fun j member => lt_of_mem_circle positive member, splices fun j hj => ?_,
      fun k early => below_of_lt_leading early, stopped, least, greatest⟩
    rw [agree j hj, takesBy, exponential]
    exact inRun_iff
  · refine splices fun j hj => ?_
    rw [agree j hj, takesBy, binomial]
    simp
  · have taken : takes first = true := by
      rw [agree first inside, takesBy]
      cases s.crossover with
      | exponential => exact inRun_iff.mpr (start_mem_circle inside (Nat.succ_pos _))
      | binomial => simp
    have own : Splices takes dim (takes · = true) := splices fun _ _ => Iff.rfl
    exact ((own x mutant size).2 first inside).1 taken

/-- Crossover takes genes as the settings say: for every index and every sequence of unit numbers,
and so for the ones that any stream gives. -/
theorem drawTakes_crosses (s : Settings) (positive : 0 < dim) :
    (∀ first < dim, ∀ draws : Nat → Float, (∀ k, 0.0 ≤ draws k ∧ draws k < 1.0) →
      Crosses s dim first draws (takesBy s dim first draws)) ∧
    (dim ≤ 2 ^ 63 → ∀ g, ∃ first g₁ takes, (index dim).run g = (.ok first, g₁) ∧ first < dim ∧
      (drawTakes s dim).run g = (.ok takes, g₁.ahead (looked s dim g₁.units)) ∧
      (∀ j < dim, takes j = takesBy s dim first g₁.units j) ∧
      (∀ k, 0.0 ≤ g₁.units k ∧ g₁.units k < 1.0) ∧ Crosses s dim first g₁.units takes) := by
  refine ⟨fun first inside draws range => ?_, fun short g => ?_⟩
  · exact crosses_of_takesBy s inside range fun _ _ => rfl
  · obtain ⟨first, g₁, takes, drawn, inside, run, agree⟩ := run_drawTakes s positive short g
    exact ⟨first, g₁, takes, drawn, inside, run, agree, g₁.units_mem,
      crosses_of_takesBy s inside g₁.units_mem agree⟩

/-- Three genes, a run from the last one on, and two numbers, of which only the first is below the
rate: the run goes on to the first gene and ends there. -/
theorem drawTakes_crosses_around :
    let s : Settings := { cross := 0.5, crossover := .exponential }
    let draws := fun k => if k = 0 then 0.25 else 0.75
    Crosses s 3 2 draws (takesBy s 3 2 draws) ∧
      (List.range 3).map (takesBy s 3 2 draws) = [true, false, true] := by
  intro s draws
  have range (k : Nat) : 0.0 ≤ draws k ∧ draws k < 1.0 := by
    unfold draws
    split <;> decide +kernel
  exact ⟨(drawTakes_crosses s (by decide)).1 2 (by decide) draws range, by decide +kernel⟩

end BoxSearch.Differential
