import BoxSearch.Proofs.Strategy.Competition
import BoxSearch.Proofs.Strategy.Progress
import Mathlib.Algebra.BigOperators.Group.Finset.Basic
import Mathlib.Algebra.Order.BigOperators.Group.Finset
import Mathlib.Data.Finset.Max
import Mathlib.Data.Nat.Choose.Basic
import Mathlib.Tactic.Ring

/-!
How many rows a step has evaluated.

Costs add up along the moves of a step, and no move but that of a swarm leaves a row to be evaluated
again. What a step costs is known beforehand for all strategies but two: it depends on how many pairs
have a new child, and on how many fireflies outshine one another. Dominance is a strict order, so at
most one of two fireflies outshines the other, and there is always one whom nobody outshines.
-/

namespace BoxSearch

open Search

variable {σ P : Type} {evaluator : Evaluator σ Float P} {s s' : Run Float P × Session σ}

namespace Run

/-- So many rows are evaluated on the way from one run to another. All of them wait to be folded, and
if no row of the population was stale then none is. -/
structure Spends (count : Nat) (run run' : Run Float P) : Prop where
  popSize : run'.popSize = run.popSize
  marks : run'.stale.size = run.stale.size
  nEval : run'.nEval = run.nEval + count
  waiting : run'.waiting.length = run.waiting.length + count
  fresh : run.stalePlaces = [] → run'.stalePlaces = []

variable {run run' run'' : Run Float P} {count count' : Nat}

theorem Spends.refl (run : Run Float P) : Spends 0 run run :=
  ⟨rfl, rfl, rfl, rfl, fun fresh => fresh⟩

theorem Spends.trans (h : Spends count run run') (h' : Spends count' run' run'') :
    Spends (count + count') run run'' := by
  refine ⟨h'.popSize.trans h.popSize, h'.marks.trans h.marks, ?_, ?_, fun fresh => ?_⟩
  · rw [h'.nEval, h.nEval, Nat.add_assoc]
  · rw [h'.waiting, h.waiting, Nat.add_assoc]
  · exact h'.fresh (h.fresh fresh)

theorem spends_of_redrawn (h : Redrawn run run') : Spends 0 run run' := by
  obtain ⟨streams, rfl⟩ := h
  exact ⟨rfl, rfl, rfl, rfl, fun fresh => fresh⟩

/-- An evaluation costs one for each candidate. -/
theorem spends_of_assessed {X F : Rows Float} {answers : List (Member Float P)}
    (h : Assessed evaluator X F s answers s') : Spends X.size s.1 s'.1 := by
  have count : answers.length = X.size := by
    have equal := congrArg List.length h.answers
    simpa [h.size] using equal
  have same := sameFitness_of_assesses h.same
  refine ⟨same.popSize, congrArg Array.size same.stale, ?_, ?_, fun fresh => ?_⟩
  · rw [h.moves.accounts.nEval, count]
  · rw [h.waiting, List.length_append, count]
  · exact same.stalePlaces.trans fresh

/-- Who takes a place has been evaluated already. -/
theorem spends_overwrite (run : Run Float P) (places : List Nat) (X F : Rows Float) :
    Spends 0 run (run.overwrite places X F) :=
  ⟨rfl, size_writeAt _ _ _, rfl, rfl, stalePlaces_overwrite⟩

theorem Spends.after (h : Spends count run run') (h' : Spends 0 run' run'') :
    Spends count run run'' :=
  h.trans h'

theorem Tried.spends {answers : List (Member Float P)} (h : Tried evaluator s answers s') :
    Spends s.1.popSize s.1 s'.1 := by
  obtain ⟨X, F, stored, s₁, s₂, size, drawn, assessed, -, accepted⟩ := h
  have evaluated := (spends_of_redrawn drawn).trans (spends_of_assessed assessed)
  rw [Nat.zero_add, size] at evaluated
  rw [accepted]
  exact evaluated.after (spends_overwrite _ _ _ _)

end Run

open Run

namespace Search

/-- All stale rows are evaluated once. -/
theorem evaluateAll_spends :
    Ensures (evaluateAll evaluator) s fun count s' =>
      count = s.1.stalePlaces.length ∧ Spends count s.1 s'.1 ∧ s'.1.stalePlaces = [] := by
  simp only [evaluateAll, ensures_bind, ensures_ite, ensures_current, ensures_update, ensures_pure]
  constructor
  · intro none
    have fresh : s.1.stalePlaces = [] := by simpa using none
    exact ⟨by rw [fresh]; rfl, .refl _, fresh⟩
  · intro _
    refine (evaluate_assessed _).mono fun F s₁ evaluated => ⟨trivial, ?_⟩
    obtain ⟨answers, assessed⟩ := evaluated
    have spends := spends_of_assessed assessed
    have same := sameFitness_of_assesses assessed.same
    have fresh : (s₁.1.settle s.1.stalePlaces F).stalePlaces = [] := by
      apply stalePlaces_mark
      intro i stale
      rw [← same.stalePlaces]
      exact stale
    rw [List.size_toArray, List.length_map] at spends
    exact ⟨⟨spends.popSize, (size_writeAt _ _ _).trans spends.marks, spends.nEval, spends.waiting,
      fun _ => fresh⟩, fresh⟩

end Search

namespace Genetic

/-- Two rows for each pair with a new child. -/
theorem step_spends (settings : Settings) :
    Ensures (step settings evaluator) s fun _ s' =>
      ∃ pairs ≤ s.1.popSize / 2, Spends (2 * pairs) s.1 s'.1 := by
  refine (step_competed settings).mono fun _ s' competed => ?_
  obtain ⟨order, families, shuffled, paired,
    ⟨-, drawn⟩ | ⟨fresh, FC, stored, answers, s₁, s₂, new, drawn, assessed, -, same⟩⟩ := competed
  · exact ⟨0, Nat.zero_le _, spends_of_redrawn drawn⟩
  refine ⟨fresh.length, ?_, ?_⟩
  · have count := congrArg List.length paired
    have size : order.toList.length = s.1.popSize := by
      have perm := (perm_of_run_shuffled shuffled).toList.length_eq
      simpa using perm
    rw [List.length_map, length_pairs, size] at count
    rw [← new, ← count]
    exact List.length_filter_le _ _
  · have evaluated := (spends_of_redrawn drawn).trans (spends_of_assessed assessed)
    rw [Nat.zero_add, children, size_children] at evaluated
    rw [same]
    apply competeAll_induction evaluated
    intro run' i k h' _
    exact h'.after (spends_overwrite _ _ _ _)

end Genetic

namespace Firefly

section Counting

variable {R : Nat → Nat → Prop} [DecidableRel R]

/-- In a strict order, one for each who is below another and one for each who is below nobody: at
most one for every two, and one more. -/
theorem sum_max_one_le (irrefl : ∀ i, ¬R i i) (trans : ∀ i j k, R i j → R j k → R i k)
    (S : Finset Nat) :
    ∑ i ∈ S, max 1 (S.filter (R · i)).card ≤ S.card.choose 2 + min 1 S.card := by
  -- members are added in the order of how many are above them, so a new one is above none before it
  let above (i : Nat) : Nat := (S.filter (R · i)).card
  have increases {i j : Nat} (hi : i ∈ S) (h : R i j) : above i < above j := by
    apply Finset.card_lt_card
    rw [Finset.ssubset_iff_of_subset]
    · exact ⟨i, by simp [hi, h], by simp [irrefl i]⟩
    · intro k hk
      rw [Finset.mem_filter] at hk ⊢
      exact ⟨hk.1, trans k i j hk.2 h⟩
  have grow (T : Finset Nat) : T ⊆ S →
      ∑ i ∈ T, max 1 (T.filter (R · i)).card ≤ T.card.choose 2 + min 1 T.card := by
    induction T using Finset.induction_on_max_value above with
    | empty => simp
    | insert a T absent last ih =>
      intro inside
      have last' : ∀ i ∈ T, ¬R a i := by
        intro i hi h
        have less := increases (inside (Finset.mem_insert_self a T)) h
        have most := last i hi
        omega
      have others : ∑ i ∈ T, max 1 ((insert a T).filter (R · i)).card =
          ∑ i ∈ T, max 1 (T.filter (R · i)).card := by
        refine Finset.sum_congr rfl fun i hi => ?_
        rw [Finset.filter_insert, if_neg (last' i hi)]
      have own : ((insert a T).filter (R · a)).card ≤ T.card := by
        rw [Finset.filter_insert, if_neg (irrefl a)]
        exact Finset.card_filter_le _ _
      have before := ih ((Finset.subset_insert a T).trans inside)
      have more : (T.card + 1).choose 2 = T.card + T.card.choose 2 := by
        rw [Nat.choose_succ_succ' T.card 1, Nat.choose_one_right]
      rw [Finset.sum_insert absent, others, Finset.card_insert_of_notMem absent, more]
      omega
  exact grow S (Finset.Subset.refl S)

end Counting

/-- Which of the first `n` fireflies outshines which. -/
def Outshines (F : Rows Float) (j i : Nat) : Prop :=
  j < F.size ∧ i < F.size ∧ Dominance.dominates (F.row j) (F.row i) = true

instance (F : Rows Float) : DecidableRel (Outshines F) :=
  fun _ _ => inferInstanceAs (Decidable (_ ∧ _ ∧ _))

/-- The brighter ones are those who outshine. -/
theorem length_brighter {F : Rows Float} {i : Nat} (inside : i < F.size) :
    (brighter F (F.row i)).length = ((Finset.range F.size).filter (Outshines F · i)).card := by
  have size : (Dominance.dominatesRows F (F.row i)).size = F.size := by
    simp [Dominance.dominatesRows]
  have mask {j : Nat} (hj : j < F.size) :
      (Dominance.dominatesRows F (F.row i)).getD j false =
        Dominance.dominates (F.row j) (F.row i) := by
    have row : F[j] = F.row j := by simp [Rows.row, hj]
    simp [Dominance.dominatesRows, Dominance.dominates, hj, row]
  have same : (List.range F.size).filter
      (fun j => (Dominance.dominatesRows F (F.row i)).getD j false) =
        (List.range F.size).filter (fun j => decide (Outshines F j i)) := by
    refine List.filter_congr fun j hj => ?_
    have below := List.mem_range.mp hj
    rw [mask below, Bool.eq_iff_iff, decide_eq_true_iff]
    exact ⟨fun h => ⟨below, inside, h⟩, fun h => h.2.2⟩
  rw [brighter, size, same]
  rfl

/-- All fireflies together have at least as many candidates as there are of them, and at most one
for every two and one more. -/
theorem sum_candidateCount {F : Rows Float} {n w : Nat} (shaped : F.Shaped n w) :
    n ≤ ((List.range n).map (candidateCount F)).sum ∧
      ((List.range n).map (candidateCount F)).sum ≤ n * (n - 1) / 2 + 1 := by
  have total : ((List.range n).map (candidateCount F)).sum =
      ∑ i ∈ Finset.range n, candidateCount F i := rfl
  rw [total]
  constructor
  · have each : ∀ i ∈ Finset.range n, 1 ≤ candidateCount F i := fun i _ => Nat.le_max_left _ _
    have least := Finset.sum_le_sum each
    simpa using least
  · have counts : ∑ i ∈ Finset.range n, candidateCount F i =
        ∑ i ∈ Finset.range n, max 1 ((Finset.range n).filter (Outshines F · i)).card := by
      refine Finset.sum_congr rfl fun i hi => ?_
      have inside : i < F.size := by
        rw [shaped.size]
        exact Finset.mem_range.mp hi
      rw [candidateCount, length_brighter inside, shaped.size]
    have irrefl (i : Nat) : ¬Outshines F i i := by
      rintro ⟨-, -, h⟩
      rw [Dominance.dominates_irrefl] at h
      cases h
    have trans (i j k : Nat) (h : Outshines F i j) (h' : Outshines F j k) : Outshines F i k := by
      rw [Outshines, shaped.size] at h h'
      have widths : (F.row i).size = (F.row j).size := by
        rw [shaped.row h.1, shaped.row h.2.1]
      rw [Outshines, shaped.size]
      exact ⟨h.1, h'.2.1, Dominance.dominates_trans widths h.2.2 h'.2.2⟩
    have most := sum_max_one_le irrefl trans (Finset.range n)
    rw [Finset.card_range, Nat.choose_two_right] at most
    rw [counts]
    omega

theorem step_spends {F : Rows Float} {n w : Nat} (known : s.1.F = some F) (shaped : F.Shaped n w)
    (popSize : s.1.popSize = n) (settings : Settings) :
    Ensures (step settings evaluator) s fun _ s' => ∃ count, n ≤ count ∧
      count ≤ n * (n - 1) / 2 + 1 ∧ Spends count s.1 s'.1 := by
  refine (step_settled settings).mono fun _ s' settled => ?_
  obtain ⟨C, FC, F', counts, answers, s₁, s₂, counted, size, drawn, assessed, known', same⟩ := settled
  obtain rfl : F = F' := Option.some.inj (known.symm.trans known')
  rw [popSize] at counted
  obtain ⟨least, most⟩ := sum_candidateCount shaped
  rw [← counted] at least most
  have evaluated := (spends_of_redrawn drawn).trans (spends_of_assessed assessed)
  rw [Nat.zero_add, size] at evaluated
  refine ⟨counts.sum, least, most, ?_⟩
  rw [same]
  apply settleAll_induction evaluated
  intro run' i k h' _
  exact h'.after (spends_overwrite _ _ _ _)

end Firefly

namespace Settings

/-- How many rows may be evaluated in one generation of a population of `n`. -/
def Costs (settings : Settings) (n rows : Nat) : Prop :=
  match settings with
  | .differential _ | .swarm _ => rows = n
  | .teaching _ => rows = 2 * n
  | .genetic _ => ∃ pairs ≤ n / 2, rows = 2 * pairs
  | .firefly _ => n ≤ rows ∧ rows ≤ n * (n - 1) / 2 + 1

/-- How many rows may have been evaluated after a number of generations, counting those of the first
population. -/
def Budget (settings : Settings) (n generations rows : Nat) : Prop :=
  match settings with
  | .differential _ | .swarm _ => rows = n * (1 + generations)
  | .teaching _ => rows = n * (1 + 2 * generations)
  | .genetic _ => ∃ pairs ≤ generations * (n / 2), rows = n + 2 * pairs
  | .firefly _ => n + generations * n ≤ rows ∧ rows ≤ n + generations * (n * (n - 1) / 2 + 1)

/-- How many rows of `n` are stale after a step. Only a swarm leaves its particles, all of them, to be
evaluated afterwards. -/
def stale (settings : Settings) (n : Nat) : Nat :=
  match settings with
  | .swarm _ => n
  | .genetic _ | .differential _ | .firefly _ | .teaching _ => 0

theorem budget_zero (settings : Settings) (n : Nat) : settings.Budget n 0 n := by
  cases settings <;> simp [Budget]

theorem Budget.next {settings : Settings} {n generations rows more : Nat}
    (h : settings.Budget n generations rows) (costs : settings.Costs n more) :
    settings.Budget n (generations + 1) (rows + more) := by
  cases settings with
  | differential | swarm | teaching =>
    rw [Budget] at h ⊢
    rw [Costs] at costs
    rw [h, costs]
    ring
  | genetic =>
    obtain ⟨pairs, few, rfl⟩ := h
    obtain ⟨pairs', few', rfl⟩ := costs
    refine ⟨pairs + pairs', ?_, by ring⟩
    rw [Nat.succ_mul]
    exact Nat.add_le_add few few'
  | firefly =>
    rw [Budget] at h ⊢
    rw [Costs] at costs
    rw [Nat.succ_mul, Nat.succ_mul]
    omega

end Settings

namespace Strategy

/-- A step has some rows evaluated, and leaves others. Together they are what a generation costs. -/
structure Charges (settings : Settings) (n rows : Nat) (run run' : Run Float P) : Prop where
  costs : settings.Costs n (rows + settings.stale n)
  nEval : run'.nEval = run.nEval + rows
  waiting : run'.waiting.length = run.waiting.length + rows
  stale : run'.stalePlaces.length = settings.stale n

theorem charges_of_spends {settings : Settings} {n rows : Nat} {run run' : Run Float P}
    (costs : settings.Costs n rows) (settled : settings.stale n = 0) (fresh : run.stalePlaces = [])
    (h : Spends rows run run') : Charges settings n rows run run' := by
  refine ⟨?_, h.nEval, h.waiting, ?_⟩
  · rwa [settled, Nat.add_zero]
  · rw [settled, h.fresh fresh, List.length_nil]

theorem step_charges {n d w : Nat} (underway : s.1.Underway n d w) (fresh : s.1.stalePlaces = [])
    (marks : s.1.stale.size = s.1.popSize) (settings : Settings) :
    Ensures (step settings evaluator) s fun _ s' => ∃ rows, Charges settings n rows s.1 s'.1 := by
  cases settings with
  | genetic settings =>
    refine (Genetic.step_spends settings).mono fun _ s' outcome => ?_
    obtain ⟨pairs, few, spends⟩ := outcome
    rw [underway.popSize] at few
    exact ⟨_, charges_of_spends ⟨pairs, few, rfl⟩ rfl fresh spends⟩
  | differential settings =>
    refine (Differential.step_tried settings).mono fun _ s' outcome => ?_
    obtain ⟨answers, tried⟩ := outcome
    have spends := tried.spends
    rw [underway.popSize] at spends
    exact ⟨n, charges_of_spends rfl rfl fresh spends⟩
  | swarm settings =>
    refine (Swarm.step_sameCounts settings).mono fun _ s' outcome => ⟨0, ?_⟩
    obtain ⟨same, all⟩ := outcome
    refine ⟨Nat.zero_add n, same.nEval, ?_, ?_⟩
    · rw [Run.waiting, same.pending]
      rfl
    · rw [all marks, List.length_range, underway.popSize]
      rfl
  | firefly settings =>
    obtain ⟨F, known, shaped⟩ := underway.fitness
    refine (Firefly.step_spends known shaped underway.popSize settings).mono fun _ s' outcome => ?_
    obtain ⟨count, least, most, spends⟩ := outcome
    exact ⟨count, charges_of_spends ⟨least, most⟩ rfl fresh spends⟩
  | teaching settings =>
    refine Teaching.step_tried.mono fun _ s' tried => ?_
    obtain ⟨answers, s₁, answers', first, second⟩ := tried
    have spends := first.spends.trans second.spends
    rw [first.spends.popSize, underway.popSize] at spends
    exact ⟨n + n, charges_of_spends (Nat.two_mul n).symm rfl fresh spends⟩

end Strategy

end BoxSearch
