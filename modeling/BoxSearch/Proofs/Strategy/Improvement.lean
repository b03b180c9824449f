import BoxSearch.Proofs.Random
import BoxSearch.Proofs.Run.Improvement
import BoxSearch.Proofs.Strategy.Moves

/-!
One step of a strategy improves the population by what it evaluates.

This is so for every strategy but a swarm, whose particles move on whatever they find. What a step
evaluates waits to be folded, and all of it was offered to the population.
-/

namespace BoxSearch

open Search Scalar OrderedScalar

variable {σ P : Type}

/-- Whatever is evaluated has a single objective. -/
def Evaluator.IsScalar (evaluator : Evaluator σ Float P) : Prop :=
  ∀ rows ses block ses' width raw, rows.isEmpty = false →
    (evaluator rows).run ses = (.ok block, ses') →
    blockRows rows.size block = .ok (width, raw) → width = 1 ∧ ∀ f ∈ raw.toList, f.size = 1

theorem Fitness.single_ranked {f : Row Float} (size : f.size = 1) :
    Row.Single (f.map ranked) := by
  refine ⟨by simpa using size, ?_⟩
  have first : Row.gene (f.map ranked) 0 = ranked (f.gene 0) := by
    simp [Row.gene, size]
  rw [first]
  exact isNaN_ranked _

theorem Fitness.single_rankedRows {F : Rows Float} (sizes : ∀ f ∈ F.toList, f.size = 1) :
    (rankedRows F).Single := by
  intro f hf
  rw [rankedRows, Array.toList_map] at hf
  obtain ⟨g, hg, rfl⟩ := List.mem_map.mp hf
  exact single_ranked (sizes g hg)

namespace Run

variable {evaluator : Evaluator σ Float P} {s s' s'' : Run Float P × Session σ}
  {answers answers' : List (Member Float P)}

/-- A tracker, once there is one, is for a single objective. -/
def IsScalar (run : Run Float P) : Prop :=
  run.tracker.isSome = true → run.nObj = some 1

theorem isScalar_registered {run run' : Run Float P} (h : run.IsScalar)
    (registered : run.Registered 1 run') : run'.IsScalar := by
  cases registered with
  | known tracked agrees => exact h
  | first fresh untracked agrees start => exact fun _ => rfl

theorem Moves.single (scalar : evaluator.IsScalar) (h : Moves evaluator s answers s') :
    ∀ m ∈ answers, m.f.Single := by
  induction h with
  | quiet | folded => exact nofun
  | @evaluated s s' rows F filled evaluated =>
    obtain ⟨block, width, raw, ses, run, answered, shaped, -, -, -, -, -⟩ := evaluated
    obtain ⟨-, sizes⟩ := scalar _ _ _ _ _ _ filled answered shaped
    intro m hm
    simp only [Call.answers, filled, answered, shaped, Batch.members, Bool.false_eq_true, if_false,
      List.mem_map, List.mem_range] at hm
    obtain ⟨i, inside, rfl⟩ := hm
    apply Fitness.single_rankedRows sizes
    apply Rows.row_mem
    rwa [Fitness.size_rankedRows, size_blockRows shaped]
  | trans _ _ first next =>
    intro m hm
    exact (List.mem_append.mp hm).elim (first m) (next m)

theorem Moves.isScalar (scalar : evaluator.IsScalar) (h : Moves evaluator s answers s')
    (before : s.1.IsScalar) : s'.1.IsScalar := by
  induction h with
  | quiet X F stale streams same =>
    rw [same]
    exact before
  | evaluated filled evaluated =>
    obtain ⟨block, width, raw, ses, run, answered, shaped, -, registered, -, changed, -⟩ := evaluated
    obtain ⟨rfl, -⟩ := scalar _ _ _ _ _ _ filled answered shaped
    rw [changed]
    have scalarRun := isScalar_registered before registered
    exact scalarRun
  | folded same =>
    rw [same]
    intro tracked
    exact before (by simpa using tracked)
  | trans _ _ first next => exact next (first before)

theorem single_of_assessed {X F : Rows Float} (scalar : evaluator.IsScalar)
    (h : Assessed evaluator X F s answers s') : F.Single := by
  intro f hf
  rw [← h.answers] at hf
  obtain ⟨m, hm, rfl⟩ := List.mem_map.mp hf
  exact h.moves.single scalar m hm

/-- The population has the same fitness, and the same rows of it are stale. -/
structure SameFitness (run run' : Run Float P) : Prop where
  popSize : run'.popSize = run.popSize
  stale : run'.stale = run.stale
  F : run'.F = run.F

theorem sameFitness_of_redrawn {run run' : Run Float P} (h : Redrawn run run') :
    SameFitness run run' := by
  obtain ⟨_, rfl⟩ := h
  exact ⟨rfl, rfl, rfl⟩

theorem sameFitness_of_assesses {run run' : Run Float P} (h : Assesses run run') :
    SameFitness run run' := by
  obtain ⟨_, _, _, _, _, rfl⟩ := h
  exact ⟨rfl, rfl, rfl⟩

theorem SameFitness.trans {run run' run'' : Run Float P} (h : SameFitness run run')
    (h' : SameFitness run' run'') : SameFitness run run'' :=
  ⟨h'.popSize.trans h.popSize, h'.stale.trans h.stale, h'.F.trans h.F⟩

theorem SameFitness.stalePlaces {run run' : Run Float P} (h : SameFitness run run') :
    run'.stalePlaces = run.stalePlaces := by
  rw [Run.stalePlaces, Run.stalePlaces, h.popSize, h.stale]

theorem SameFitness.scored {run run' : Run Float P} {F : Rows Float} (h : SameFitness run run')
    (scored : run.Scored F) : run'.Scored F :=
  ⟨h.F.trans scored.known, scored.size.trans h.popSize.symm, scored.single,
    h.stalePlaces.trans scored.fresh⟩

/-- A population that is stale as a whole has been evaluated afterwards, as a whole. -/
theorem scored_of_stale (scalar : evaluator.IsScalar)
    (stale : s.1.stalePlaces = List.range s.1.popSize) (large : 0 < s.1.popSize)
    (sizes : ∀ F, s.1.F = some F → F.size = s.1.popSize) :
    Ensures (evaluateAll evaluator) s fun _ s' => ∃ F answers s₁,
      Assessed evaluator (staleRows s.1) F s answers s₁ ∧
        s'.1 = s₁.1.settle s.1.stalePlaces F ∧ s'.1.Scored F := by
  refine evaluateAll_assessed.mono fun _ s' outcome => ?_
  rcases outcome with ⟨none, -⟩ | ⟨F, answers, s₁, assessed, settled⟩
  · rw [stale, List.range_eq_nil] at none
    omega
  have same := sameFitness_of_assesses assessed.same
  have size : F.size = s.1.popSize := by
    rw [assessed.size]
    simp [staleRows, stale]
  refine ⟨F, answers, s₁, assessed, settled, ?_, ?_, single_of_assessed scalar assessed, ?_⟩
  · have written : s'.1.F = some (writeAt (s₁.1.knownFitness F) s.1.stalePlaces F) := by
      rw [settled]
      rfl
    have before : (s₁.1.knownFitness F).size = s.1.popSize := by
      rw [Run.knownFitness, same.F, same.popSize]
      cases stored : s.1.F with
      | none => exact Array.size_replicate
      | some F' => exact sizes F' stored
    rw [written, stale, writeAt_range before size]
  · rw [size, settled]
    exact same.popSize.symm
  · rw [settled]
    apply Run.stalePlaces_mark
    intro i hi
    rw [← same.stalePlaces]
    exact hi

theorem SameFitness.improves {run run₁ run' : Run Float P} {offered : List (Row Float)}
    (h : SameFitness run run₁) (improves : run₁.Improves offered run') :
    run.Improves offered run' := by
  refine ⟨improves.popSize.trans h.popSize, fun fresh => ?_, fun F known => ?_⟩
  · exact improves.fresh (h.stalePlaces.trans fresh)
  · exact improves.fitness F (h.F.trans known)

/-- What is evaluated on the way from one run to another waits to be folded, and the population
improves by it. -/
structure Advances (evaluator : Evaluator σ Float P) (s : Run Float P × Session σ)
    (answers : List (Member Float P)) (s' : Run Float P × Session σ) : Prop where
  moves : Moves evaluator s answers s'
  waiting : s'.1.waiting = s.1.waiting ++ answers
  improves : s.1.Improves (answers.map (·.f)) s'.1

theorem Advances.trans (h : Advances evaluator s answers s')
    (h' : Advances evaluator s' answers' s'') :
    Advances evaluator s (answers ++ answers') s'' := by
  refine ⟨h.moves.trans h'.moves, ?_, ?_⟩
  · rw [h'.waiting, h.waiting, List.append_assoc]
  · rw [List.map_append]
    exact h.improves.trans h'.improves

theorem Advances.scored {F : Rows Float} (scalar : evaluator.IsScalar)
    (h : Advances evaluator s answers s') (scored : s.1.Scored F) :
    ∃ F', s'.1.Scored F' ∧ F.Improves (answers.map (·.f)) F' := by
  apply h.improves.scored scored
  intro f hf
  obtain ⟨m, hm, rfl⟩ := List.mem_map.mp hf
  exact h.moves.single scalar m hm

theorem advances_of_redrawn {F : Rows Float} (scored : s.1.Scored F)
    (drawn : Redrawn s.1 s'.1) : Advances evaluator s [] s' := by
  have same := sameFitness_of_redrawn drawn
  refine ⟨moves_of_redrawn drawn, ?_, same.improves (.refl (same.scored scored))⟩
  obtain ⟨_, redrawn⟩ := drawn
  rw [redrawn, List.append_nil]
  rfl

/-- After draws and an evaluation it is left to show what becomes of the rows that were evaluated. -/
theorem advances_of_assessed {F X FC : Rows Float} {s₁ s₂ : Run Float P × Session σ}
    (scalar : evaluator.IsScalar) (scored : s.1.Scored F) (drawn : Redrawn s.1 s₁.1)
    (assessed : Assessed evaluator X FC s₁ answers s₂) (settled : Repositions s₂.1 s'.1)
    (improves : s₂.1.Scored F → s₂.1.popSize = s.1.popSize → FC.Single →
      s₂.1.Improves FC.toList s'.1) : Advances evaluator s answers s' := by
  have same := (sameFitness_of_redrawn drawn).trans (sameFitness_of_assesses assessed.same)
  have single := single_of_assessed scalar assessed
  refine ⟨?_, ?_, ?_⟩
  · have whole := ((moves_of_redrawn drawn).trans assessed.moves).trans
      (moves_of_repositions settled)
    simpa using whole
  · obtain ⟨_, redrawn⟩ := drawn
    obtain ⟨_, _, _, repositioned⟩ := settled
    have before : s₁.1.waiting = s.1.waiting := by
      rw [redrawn]
      rfl
    have after : s'.1.waiting = s₂.1.waiting := by
      rw [repositioned]
      rfl
    rw [after, assessed.waiting, before]
  · rw [assessed.answers]
    exact same.improves (improves (same.scored scored) same.popSize single)

theorem Tried.advances {F : Rows Float} (scalar : evaluator.IsScalar) (scored : s.1.Scored F)
    (h : Tried evaluator s answers s') : Advances evaluator s answers s' := by
  obtain ⟨X, FC, stored, s₁, s₂, size, drawn, assessed, known, accepted⟩ := h
  have same : stored = F := by
    rw [scored.known] at known
    exact (Option.some.inj known).symm
  subst same
  refine advances_of_assessed scalar scored drawn assessed ⟨_, _, _, accepted⟩ ?_
  intro scored₂ popSize single
  rw [accepted]
  refine improves_accept scored₂ ?_ single
  rw [assessed.size, size, popSize]

end Run

open Run

variable {evaluator : Evaluator σ Float P} {s : Run Float P × Session σ} {F : Rows Float}

namespace Teaching

/-- Both phases of a lesson improve the class. -/
theorem step_advances (scalar : evaluator.IsScalar) (scored : s.1.Scored F) :
    Ensures (step evaluator) s fun _ s' => ∃ answers, Advances evaluator s answers s' := by
  refine step_tried.mono fun _ s' tried => ?_
  obtain ⟨answers, s₁, answers', first, second⟩ := tried
  have taught := first.advances scalar scored
  obtain ⟨F₁, scored₁, -⟩ := taught.scored scalar scored
  exact ⟨_, taught.trans (second.advances scalar scored₁)⟩

end Teaching

namespace Firefly

/-- A walk stays where it starts if that is best, and otherwise ends at a candidate that is not
worse than any other. -/
theorem walk_cases {start : Row Float} (single : start.Single)
    {candidates : List (Row Float × Row Float)} (singles : ∀ c ∈ candidates, c.2.Single) :
    (walk start candidates = none ∧ ∀ c ∈ candidates, start.gene 0 ≤ c.2.gene 0) ∨
      ∃ c ∈ candidates, walk start candidates = some c ∧ c.2.gene 0 ≤ start.gene 0 ∧
        ∀ d ∈ candidates, c.2.gene 0 ≤ d.2.gene 0 := by
  let step (held : Row Float × Option (Row Float × Row Float)) (c : Row Float × Row Float) :=
    if Dominance.notWorse c.2 held.1 then (c.2, some c) else held
  have loop (candidates : List (Row Float × Row Float)) (f : Row Float)
      (last : Option (Row Float × Row Float)) (single : f.Single)
      (singles : ∀ c ∈ candidates, c.2.Single) :
      (candidates.foldl step (f, last) = (f, last) ∧ ∀ c ∈ candidates, f.gene 0 ≤ c.2.gene 0) ∨
        ∃ c ∈ candidates, candidates.foldl step (f, last) = (c.2, some c) ∧
          c.2.gene 0 ≤ f.gene 0 ∧ ∀ d ∈ candidates, c.2.gene 0 ≤ d.2.gene 0 := by
    induction candidates generalizing f last with
    | nil => exact .inl ⟨rfl, nofun⟩
    | cons c candidates ih =>
      have singleC := singles c List.mem_cons_self
      have singlesRest : ∀ d ∈ candidates, d.2.Single := fun d hd =>
        singles d (List.mem_cons_of_mem _ hd)
      rw [List.foldl_cons]
      by_cases le : c.2.gene 0 ≤ f.gene 0
      · have taken : step (f, last) c = (c.2, some c) :=
          if_pos ((Dominance.notWorse_single singleC).mpr le)
        rw [taken]
        rcases ih c.2 (some c) singleC singlesRest with ⟨kept, least⟩ | ⟨d, hd, moved, below, least⟩
        · refine .inr ⟨c, List.mem_cons_self, kept, le, ?_⟩
          exact List.forall_mem_cons.mpr ⟨singleC.le_self, least⟩
        · refine .inr ⟨d, List.mem_cons_of_mem _ hd, moved, le_trans below le, ?_⟩
          exact List.forall_mem_cons.mpr ⟨below, least⟩
      · have kept : step (f, last) c = (f, last) :=
          if_neg (mt (Dominance.notWorse_single singleC).mp le)
        have more : f.gene 0 ≤ c.2.gene 0 :=
          (le_total single.le_self singleC.le_self).resolve_right le
        rw [kept]
        rcases ih f last single singlesRest with ⟨stays, least⟩ | ⟨d, hd, moved, below, least⟩
        · exact .inl ⟨stays, List.forall_mem_cons.mpr ⟨more, least⟩⟩
        · refine .inr ⟨d, List.mem_cons_of_mem _ hd, moved, below, ?_⟩
          exact List.forall_mem_cons.mpr ⟨le_trans below more, least⟩
  have whole : walk start candidates = (candidates.foldl step (start, none)).2 := rfl
  rw [whole]
  rcases loop candidates start none single singles with ⟨kept, least⟩ | ⟨c, hc, moved, below, least⟩
  · exact .inl ⟨by rw [kept], least⟩
  · exact .inr ⟨c, hc, by rw [moved], below, least⟩

/-- The fitness of some candidates in a row. -/
def stretch (FC : Rows Float) (offset count : Nat) : List (Row Float) :=
  (List.range count).map fun k => FC.row (offset + k)

theorem stretch_add (FC : Rows Float) (offset count rest : Nat) :
    stretch FC offset (count + rest) = stretch FC offset count ++ stretch FC (offset + count) rest := by
  simp [stretch, List.range_add, Nat.add_assoc]

theorem stretch_all (FC : Rows Float) : stretch FC 0 FC.size = FC.toList := by
  apply List.ext_getElem
  · simp [stretch]
  · intro i _ inside
    have below : i < FC.size := by simpa using inside
    simp [stretch, Rows.row, below]

theorem single_stretch {FC : Rows Float} (single : FC.Single) {offset count : Nat}
    (enough : offset + count ≤ FC.size) : ∀ f ∈ stretch FC offset count, f.Single := by
  intro f hf
  obtain ⟨k, hk, rfl⟩ := List.mem_map.mp hf
  have below := List.mem_range.mp hk
  exact single.row (by omega)

/-- One firefly goes where its walk ends, and all others stay where they are. -/
theorem settleStep_improves {F F' C FC : Rows Float} {run : Run Float P} {offset count i : Nat}
    (scored : run.Scored F') (inside : i < run.popSize) (unmoved : F'.row i = F.row i)
    (single : FC.Single) (enough : offset + count ≤ FC.size) :
    ∃ run', settleStep F C FC (run, offset) (count, i) = (run', offset + count) ∧
      run.Improves (stretch FC offset count) run' ∧
      ∀ F'', run'.F = some F'' → ∀ j, j ≠ i → F''.row j = F'.row j := by
  rw [settleStep]
  dsimp only
  generalize listed : (List.range count).map (fun k => (C.row (offset + k), FC.row (offset + k))) =
    own
  have fitness : own.map (·.2) = stretch FC offset count := by
    rw [← listed]
    simp [stretch]
  have singles : ∀ c ∈ own, c.2.Single := by
    intro c hc
    apply single_stretch single enough
    rw [← fitness]
    exact List.mem_map_of_mem hc
  have start : (F.row i).Single := by
    rw [← unmoved]
    exact scored.single.row (by rwa [scored.size])
  rcases walk_cases start singles with ⟨stays, least⟩ | ⟨c, hc, moves, below, least⟩
  · rw [stays]
    refine ⟨run, rfl, improves_keep scored inside fun g hg => ?_, fun F'' known j _ => ?_⟩
    · rw [← fitness] at hg
      obtain ⟨c, hc, rfl⟩ := List.mem_map.mp hg
      rw [unmoved]
      exact least c hc
    · rw [scored.known] at known
      cases known
      rfl
  · rw [moves]
    refine ⟨_, rfl, improves_overwrite scored inside ?_ ?_ ?_, fun F'' known j other => ?_⟩
    · rw [← fitness]
      exact List.mem_map_of_mem hc
    · intro g hg
      rw [← fitness] at hg
      obtain ⟨d, hd, rfl⟩ := List.mem_map.mp hg
      exact least d hd
    · rw [unmoved]
      exact below
    · have written : run.F.map (writeAt · [i] #[c.2]) = some F'' := known
      rw [scored.known] at written
      cases written
      apply row_eq_of_getElem?
      simp [writeAt, other.symm]

/-- The fireflies walk one after another, each through candidates of its own. -/
theorem settleAll_improves {F C FC : Rows Float} {counts : List Nat} {run : Run Float P}
    (scored : run.Scored F) (single : FC.Single) (size : FC.size = counts.sum)
    (length : counts.length = run.popSize) :
    run.Improves FC.toList (settleAll F C FC counts run) := by
  -- the fireflies from the `i`-th one on have not moved yet
  let walked (i : Nat) (run' : Run Float P) : Prop :=
    ∃ F', run'.Scored F' ∧ (∀ j, i ≤ j → F'.row j = F.row j) ∧
      run.Improves (stretch FC 0 (counts.take i).sum) run'
  have start : walked 0 run := ⟨F, scored, fun _ _ => rfl, .refl scored⟩
  have whole : walked counts.length (settleAll F C FC counts run) := by
    apply settleAll_walks start
    rintro i run' inside ⟨F', scored', unmoved, improves⟩
    have enough : (counts.take i).sum + counts[i] ≤ FC.size := by
      rw [size]
      exact sum_take_add_le inside
    have place : i < run'.popSize := by rwa [improves.popSize, ← length]
    obtain ⟨run'', step, more, others⟩ := settleStep_improves (C := C) scored' place
      (unmoved i (Nat.le_refl i)) single enough
    obtain ⟨F'', scored'', -⟩ := more.scored scored' (single_stretch single enough)
    rw [step]
    refine ⟨F'', scored'', fun j later => ?_, ?_⟩
    · rw [others F'' scored''.known j (by omega)]
      exact unmoved j (by omega)
    · rw [List.sum_take_succ counts i inside, stretch_add, Nat.zero_add]
      exact improves.trans more
  obtain ⟨-, -, -, improves⟩ := whole
  rwa [List.take_length, ← size, stretch_all] at improves

theorem step_advances (settings : Settings) (scalar : evaluator.IsScalar)
    (scored : s.1.Scored F) :
    Ensures (step settings evaluator) s fun _ s' => ∃ answers, Advances evaluator s answers s' := by
  refine (step_settled settings).mono fun _ s' settled => ?_
  obtain ⟨C, FC, stored, counts, answers, s₁, s₂, counted, size, drawn, assessed, known, same⟩ :=
    settled
  rw [scored.known] at known
  cases known
  have settles := settleAll_repositions F C FC counts s₂.1
  rw [← same] at settles
  refine ⟨answers, advances_of_assessed scalar scored drawn assessed settles ?_⟩
  intro scored₂ popSize single
  rw [same]
  refine settleAll_improves scored₂ single ?_ ?_
  · rw [assessed.size, size]
  · rw [counted, popSize, List.length_map, List.length_range]

end Firefly

namespace Genetic

/-- A child takes the place of the weaker parent, or is worse than that. -/
theorem challenge_improves {run : Run Float P} (scored : run.Scored F) {a b : Nat}
    (insideA : a < run.popSize) (insideB : b < run.popSize) {child : Row Float × Row Float}
    (single : child.2.Single) : run.Improves [child.2] (challenge a b run child) := by
  rw [challenge, scored.known]
  dsimp only
  have inside : (if firstWeaker (F.row a) (F.row b) = true then a else b) < run.popSize := by
    split <;> assumption
  generalize (if firstWeaker (F.row a) (F.row b) = true then a else b) = loser at inside ⊢
  have insideF : loser < F.size := by rwa [scored.size]
  by_cases le : child.2.gene 0 ≤ (F.row loser).gene 0
  · rw [if_pos ((Dominance.notWorse_single single).mpr le)]
    refine improves_overwrite scored inside List.mem_cons_self ?_ le
    simpa using single.le_self
  · rw [if_neg (mt (Dominance.notWorse_single single).mp le)]
    refine improves_keep scored inside ?_
    have total := le_total (scored.single.row insideF).le_self single.le_self
    simpa using total.resolve_right le

theorem compete_improves {run : Run Float P} (scored : run.Scored F) {a b : Nat}
    (insideA : a < run.popSize) (insideB : b < run.popSize) {c d : Row Float × Row Float}
    (singleC : c.2.Single) (singleD : d.2.Single) :
    run.Improves [c.2, d.2] (compete run a b c d) := by
  rw [compete]
  generalize listed : (if Dominance.notWorse c.2 d.2 = true then [c, d] else [d, c]) = children
  have either : ∀ child, child ∈ children ↔ child = c ∨ child = d := by
    intro child
    rw [← listed]
    split
    · simp
    · simp [or_comm]
  have improves : run.Improves (children.flatMap fun child => [child.2])
      (children.foldl (challenge a b) run) := by
    refine improves_foldl scored ?_ ?_
    · intro child hchild f hf
      rw [List.mem_singleton.mp hf]
      rcases (either child).mp hchild with rfl | rfl <;> assumption
    · intro child hchild run' F' popSize scored'
      rw [← popSize] at insideA insideB
      apply challenge_improves scored' insideA insideB
      rcases (either child).mp hchild with rfl | rfl <;> assumption
  apply improves.congr
  intro f
  simp [either]

/-- The rows of the children of `n` families are two for each of them. -/
theorem mem_children_iff {FC : Rows Float} {n : Nat} (size : FC.size = 2 * n) {f : Row Float} :
    f ∈ FC.toList ↔ ∃ k < n, f ∈ [FC.row (2 * k), FC.row (2 * k + 1)] := by
  constructor
  · intro hf
    obtain ⟨i, inside, rfl⟩ := Rows.exists_row hf
    refine ⟨i / 2, by omega, ?_⟩
    rcases Nat.mod_two_eq_zero_or_one i with even | odd
    · have here : 2 * (i / 2) = i := by omega
      simp [here]
    · have here : 2 * (i / 2) + 1 = i := by omega
      simp [here]
  · rintro ⟨k, inside, hf⟩
    rcases List.mem_pair.mp hf with rfl | rfl
    · exact Rows.row_mem (by omega)
    · exact Rows.row_mem (by omega)

/-- The families compete one after another, each with two children of its own. -/
theorem competeAll_improves {families : List (Family Float)} {C FC : Rows Float}
    {run : Run Float P} (scored : run.Scored F) (single : FC.Single)
    (size : FC.size = 2 * families.length)
    (inside : ∀ f ∈ families, f.first < run.popSize ∧ f.second < run.popSize) :
    run.Improves FC.toList (competeAll families C FC run) := by
  let offers (entry : Family Float × Nat) : List (Row Float) :=
    [FC.row (2 * entry.2), FC.row (2 * entry.2 + 1)]
  have below {entry : Family Float × Nat} (h : entry ∈ families.zipIdx) :
      entry.1 ∈ families ∧ entry.2 < families.length := by
    obtain ⟨family, k⟩ := entry
    obtain ⟨-, below, same⟩ := List.mem_zipIdx h
    refine ⟨?_, by omega⟩
    rw [same]
    exact List.getElem_mem _
  have improves : run.Improves (families.zipIdx.flatMap offers) (competeAll families C FC run) := by
    refine improves_foldl scored ?_ ?_
    · intro entry hentry f hf
      exact single f ((mem_children_iff size).mpr ⟨entry.2, (below hentry).2, hf⟩)
    · rintro ⟨family, k⟩ hentry run' F' popSize scored'
      obtain ⟨member, inRange⟩ := below hentry
      obtain ⟨first, second⟩ := inside family member
      rw [← popSize] at first second
      dsimp only at inRange
      have singleC : (FC.row (2 * k)).Single := single.row (by omega)
      have singleD : (FC.row (2 * k + 1)).Single := single.row (by omega)
      exact compete_improves (c := (C.row (2 * k), FC.row (2 * k)))
        (d := (C.row (2 * k + 1), FC.row (2 * k + 1))) scored' first second singleC singleD
  apply improves.congr
  intro f
  rw [mem_children_iff size, List.mem_flatMap]
  constructor
  · rintro ⟨k, inRange, hf⟩
    have entry : (families[k], k) ∈ families.zipIdx := by
      rw [List.mk_mem_zipIdx_iff_getElem?]
      simp
    exact ⟨_, entry, hf⟩
  · rintro ⟨entry, hentry, hf⟩
    exact ⟨entry.2, (below hentry).2, hf⟩

theorem mem_of_mem_pairs {order : List Nat} {a b : Nat} (h : (a, b) ∈ pairs order) :
    a ∈ order ∧ b ∈ order := by
  induction order using pairs.induct with
  | case1 c d rest ih =>
    rw [pairs, List.mem_cons] at h
    rcases h with first | later
    · cases first
      simp
    · have found := ih later
      simp [found.1, found.2]
  | case2 order short =>
    rw [pairs] at h
    · cases h
    · exact short

theorem step_advances (settings : Settings) (scalar : evaluator.IsScalar)
    (scored : s.1.Scored F) :
    Ensures (step settings evaluator) s fun _ s' => ∃ answers, Advances evaluator s answers s' := by
  refine (step_competed settings).mono fun _ s' competed => ?_
  obtain ⟨order, families, shuffled, paired,
    ⟨-, drawn⟩ | ⟨fresh, FC, stored, answers, s₁, s₂, new, drawn, assessed, known, same⟩⟩ := competed
  · exact ⟨[], advances_of_redrawn scored drawn⟩
  have settles := competeAll_repositions fresh (s.1.bounds.clipRows (children fresh)) FC s₂.1
  rw [← same] at settles
  refine ⟨answers, advances_of_assessed scalar scored drawn assessed settles ?_⟩
  intro scored₂ popSize single
  have inside (i : Nat) (hi : i ∈ order.toList) : i < s₂.1.popSize := by
    have kept := (perm_of_run_shuffled shuffled).mem_iff.mp (Array.mem_toList_iff.mp hi)
    rw [popSize]
    simpa using kept
  rw [same]
  refine competeAll_improves scored₂ single ?_ ?_
  · rw [assessed.size]
    exact size_children _ _
  · intro family hfamily
    rw [← new] at hfamily
    have pair := List.mem_map_of_mem (f := Family.places) (List.mem_filter.mp hfamily).1
    rw [paired] at pair
    obtain ⟨first, second⟩ := mem_of_mem_pairs pair
    exact ⟨inside _ first, inside _ second⟩

end Genetic

namespace Strategy

/-- Whatever a strategy evaluates in a step is offered to the population, unless it is a swarm. -/
theorem step_advances {settings : Settings} (other : ∀ swarm, settings ≠ .swarm swarm)
    (scalar : evaluator.IsScalar) (scored : s.1.Scored F) :
    Ensures (step settings evaluator) s fun _ s' => ∃ answers, Advances evaluator s answers s' := by
  cases settings with
  | genetic settings => exact Genetic.step_advances settings scalar scored
  | differential settings =>
    refine (Differential.step_tried settings).mono fun _ _ outcome => ?_
    obtain ⟨answers, tried⟩ := outcome
    exact ⟨answers, tried.advances scalar scored⟩
  | swarm settings => exact absurd rfl (other settings)
  | firefly settings => exact Firefly.step_advances settings scalar scored
  | teaching settings => exact Teaching.step_advances scalar scored

end Strategy

end BoxSearch
