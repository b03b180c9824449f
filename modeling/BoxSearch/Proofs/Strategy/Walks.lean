import BoxSearch.Proofs.Dominance
import BoxSearch.Proofs.Run.Replacement
import BoxSearch.Proofs.Strategy.Improvement

/-!
Where the walk of a firefly may lead.

A firefly compares each of its candidates with the one it holds, and not with where it started. With
a single objective that makes no difference, as a fitness that is not worse is at most as large.
With several, a fitness may be neither better nor worse than the one before, and after two such
moves the firefly may end up with a fitness that is dominated by its first one.
-/

namespace BoxSearch

open Search Scalar OrderedScalar

namespace Dominance

variable {f g : Row Float}

/-- Of vectors with the same width, one that is not worse is not dominated. -/
theorem dominates_of_notWorse (size : f.size = g.size) (h : notWorse g f = true) :
    dominates f g = false := by
  unfold notWorse at h
  split at h
  case isTrue single =>
    have one : g.size = 1 := by simpa using single
    rw [Bool.eq_false_iff, Ne, dominates_iff]
    rintro ⟨-, j, inside, below⟩
    obtain rfl : j = 0 := by omega
    exact not_le_of_lt below (of_decide_eq_true h)
  case isFalse => simpa using h

end Dominance

namespace Firefly

section Trail

variable {f : Row Float} {offers : List (Row Float)} {w : ℕ}

/-- The fitness that a firefly holds, one after another, when candidates of some fitness are offered
to it. -/
def trail (f : Row Float) : List (Row Float) → List (Row Float)
  | [] => [f]
  | c :: offers => if Dominance.notWorse c f then f :: trail c offers else trail f offers

theorem trail_eq_cons (f : Row Float) (offers : List (Row Float)) :
    ∃ accepted, trail f offers = f :: accepted ∧ accepted.Sublist offers := by
  induction offers generalizing f with
  | nil => exact ⟨[], rfl, .slnil⟩
  | cons c offers ih =>
    rw [trail]
    split
    case isTrue =>
      obtain ⟨accepted, held, among⟩ := ih c
      exact ⟨c :: accepted, by rw [held], among.cons_cons c⟩
    case isFalse =>
      obtain ⟨accepted, held, among⟩ := ih f
      exact ⟨accepted, held, among.cons c⟩

theorem length_trail_le (f : Row Float) (offers : List (Row Float)) :
    (trail f offers).length ≤ offers.length + 1 := by
  obtain ⟨accepted, held, among⟩ := trail_eq_cons f offers
  rw [held, List.length_cons]
  exact Nat.succ_le_succ among.length_le

/-- A firefly never moves to a candidate whose fitness is dominated by the one it holds. -/
theorem isChain_trail (size : f.size = w) (sizes : ∀ c ∈ offers, c.size = w) :
    (trail f offers).IsChain fun f g => Dominance.dominates f g = false := by
  induction offers generalizing f with
  | nil => exact .singleton f
  | cons c offers ih =>
    have sizeC := sizes c List.mem_cons_self
    have rest := fun d hd => sizes d (List.mem_cons_of_mem c hd)
    rw [trail]
    split
    case isFalse => exact ih size rest
    case isTrue taken =>
      obtain ⟨accepted, held, -⟩ := trail_eq_cons c offers
      have chain := ih sizeC rest
      rw [held] at chain ⊢
      exact .cons_cons (Dominance.dominates_of_notWorse (size.trans sizeC.symm) taken) chain

/-- With a single objective, the fitness held last is at most the first one, or it is still that. -/
theorem last_trail_single (size : f.size = 1) (sizes : ∀ c ∈ offers, c.size = 1)
    {g : Row Float} (last : (trail f offers).getLast? = some g) : g = f ∨ g.gene 0 ≤ f.gene 0 := by
  induction offers generalizing f with
  | nil => exact .inl (by simpa [trail, eq_comm] using last)
  | cons c offers ih =>
    have sizeC := sizes c List.mem_cons_self
    have rest := fun d hd => sizes d (List.mem_cons_of_mem c hd)
    rw [trail] at last
    split at last
    case isFalse => exact ih size rest last
    case isTrue taken =>
      have below : c.gene 0 ≤ f.gene 0 := by simpa [Dominance.notWorse, sizeC] using taken
      obtain ⟨accepted, held, -⟩ := trail_eq_cons c offers
      rw [held, List.getLast?_cons_cons, ← held] at last
      rcases ih sizeC rest last with rfl | further
      · exact .inr below
      · exact .inr (le_trans further below)

/-- The first fitness does not dominate the last one if there is a single objective or no more than
one candidate was accepted. -/
theorem dominates_last_trail (size : f.size = w) (sizes : ∀ c ∈ offers, c.size = w) {g : Row Float}
    (last : (trail f offers).getLast? = some g) (few : (trail f offers).length ≤ 2 ∨ w = 1) :
    Dominance.dominates f g = false := by
  rcases few with few | rfl
  · have chain := isChain_trail size sizes
    obtain ⟨accepted, held, -⟩ := trail_eq_cons f offers
    rw [held] at chain last few
    match accepted with
    | [] =>
      cases last
      exact Dominance.dominates_irrefl f
    | [c] =>
      cases last
      exact (List.isChain_cons_cons.mp chain).1
    | _ :: _ :: _ => simp at few
  · rcases last_trail_single size sizes last with rfl | below
    · exact Dominance.dominates_irrefl g
    · rw [Bool.eq_false_iff, Ne, Dominance.dominates_iff]
      rintro ⟨-, j, inside, above⟩
      obtain rfl : j = 0 := by omega
      exact not_le_of_lt above below

/-- A walk ends at the candidate whose fitness is held last. -/
theorem last_trail_eq (f : Row Float) (own : List (Row Float × Row Float)) :
    (trail f (own.map (·.2))).getLast? = some (((walk f own).map (·.2)).getD f) := by
  let step (held : Row Float × Option (Row Float × Row Float)) (c : Row Float × Row Float) :=
    if Dominance.notWorse c.2 held.1 then (c.2, some c) else held
  have loop (own : List (Row Float × Row Float)) (g : Row Float)
      (last : Option (Row Float × Row Float)) (holds : (last.map (·.2)).getD f = g) :
      (trail g (own.map (·.2))).getLast? =
        some (((own.foldl step (g, last)).2.map (·.2)).getD f) := by
    induction own generalizing g last with
    | nil =>
      rw [← holds]
      rfl
    | cons c own ih =>
      rw [List.map_cons, List.foldl_cons, trail]
      by_cases taken : Dominance.notWorse c.2 g = true
      · have moved : step (g, last) c = (c.2, some c) := if_pos taken
        obtain ⟨accepted, held, -⟩ := trail_eq_cons c.2 (own.map (·.2))
        rw [if_pos taken, moved, held, List.getLast?_cons_cons, ← held]
        exact ih c.2 (some c) rfl
      · have kept : step (g, last) c = (g, last) := if_neg taken
        rw [if_neg taken, kept]
        exact ih g last holds
  exact loop own f none rfl

end Trail

variable {σ P : Type} {evaluator : Evaluator σ Float P} {s : Run Float P × Session σ}
  {F C FC : Rows Float} {w : ℕ}

/-- One firefly goes where its walk ends, and the fitness of all others stays what it is. -/
theorem settleStep_fitness (C FC : Rows Float) {F' : Rows Float} {run : Run Float P}
    (offset count : ℕ) {i : ℕ} (known : run.F = some F') (inside : i < F'.size)
    (unmoved : F'.row i = F.row i) :
    ∃ run' F'', settleStep F C FC (run, offset) (count, i) = (run', offset + count) ∧
      run'.F = some F'' ∧ F''.size = F'.size ∧ (∀ j, j ≠ i → F''.row j = F'.row j) ∧
      (trail (F.row i) (stretch FC offset count)).getLast? = some (F''.row i) := by
  rw [settleStep]
  dsimp only
  generalize listed : (List.range count).map (fun k => (C.row (offset + k), FC.row (offset + k))) =
    own
  have fitness : own.map (·.2) = stretch FC offset count := by
    rw [← listed]
    simp [stretch]
  rw [← fitness, last_trail_eq]
  cases ended : walk (F.row i) own with
  | none => exact ⟨run, F', rfl, known, rfl, fun _ _ => rfl, by rw [unmoved]; rfl⟩
  | some c =>
    refine ⟨_, writeAt F' [i] #[c.2], rfl, ?_, size_writeAt _ _ _, fun j other => ?_, ?_⟩
    · change run.F.map _ = _
      rw [known]
      rfl
    · have absent : j ∉ [i] := by simpa using other
      rw [Rows.row, Rows.row, Array.getD_eq_getD_getElem?, Array.getD_eq_getD_getElem?,
        getElem?_writeAt_absent absent]
    · have here : (writeAt F' [i] #[c.2])[i]? = (#[c.2] : Rows Float)[0]? :=
        getElem?_writeAt_last rfl (by rintro (_ | l) <;> simp) (by simp) inside
      have row : Rows.row (writeAt F' [i] #[c.2]) i = c.2 := by
        rw [Rows.row, Array.getD_eq_getD_getElem?, here]
        rfl
      rw [row]
      rfl

/-- Every firefly goes where the walk through its own candidates ends. -/
theorem settleAll_fitness (C FC : Rows Float) {counts : List ℕ} {run : Run Float P}
    (known : run.F = some F) (length : counts.length = F.size) :
    ∃ F', (settleAll F C FC counts run).F = some F' ∧ F'.size = F.size ∧ ∀ i < F.size,
      (trail (F.row i) (stretch FC (counts.take i).sum (counts.getD i 0))).getLast? =
        some (F'.row i) := by
  -- the fireflies from the `i`-th one on have not moved yet
  let walked (i : ℕ) (run' : Run Float P) : Prop :=
    ∃ F', run'.F = some F' ∧ F'.size = F.size ∧ (∀ j, i ≤ j → F'.row j = F.row j) ∧
      ∀ j < i, (trail (F.row j) (stretch FC (counts.take j).sum (counts.getD j 0))).getLast? =
        some (F'.row j)
  have start : walked 0 run := ⟨F, known, rfl, fun _ _ => rfl, nofun⟩
  have whole : walked counts.length (settleAll F C FC counts run) := by
    apply settleAll_walks start
    rintro i run' inside ⟨F', known', size, unmoved, ends⟩
    obtain ⟨run'', F'', step, known'', size', others, here⟩ := settleStep_fitness C FC
      (counts.take i).sum counts[i] known' (by omega) (unmoved i (Nat.le_refl i))
    rw [step]
    refine ⟨F'', known'', size'.trans size, fun j later => ?_, fun j below => ?_⟩
    · rw [others j (by omega)]
      exact unmoved j (by omega)
    · rcases Nat.lt_succ_iff_lt_or_eq.mp below with earlier | rfl
      · rw [others j (by omega)]
        exact ends j earlier
      · rw [List.getD_eq_getElem _ _ inside]
        exact here
  obtain ⟨F', known', size, -, ends⟩ := whole
  exact ⟨F', known', size, fun i inside => ends i (by omega)⟩

/-- The fitness of the candidates of one firefly, out of those of all fireflies. -/
def offered (F FC : Rows Float) (i : ℕ) : List (Row Float) :=
  stretch FC ((List.range i).map (candidateCount F)).sum (candidateCount F i)

theorem stretch_candidateCount {n i : ℕ} (inside : i < n) :
    stretch FC (((List.range n).map (candidateCount F)).take i).sum
      (((List.range n).map (candidateCount F)).getD i 0) = offered F FC i := by
  rw [offered, ← List.map_take, List.take_range, Nat.min_eq_left inside.le]
  simp [inside]

/-- Every firefly has a candidate, also one that no other outshines. -/
theorem sum_candidateCount_pos {n : ℕ} (inhabited : 0 < n) :
    0 < ((List.range n).map (candidateCount F)).sum := by
  obtain ⟨n, rfl⟩ : ∃ m, n = m + 1 := Nat.exists_eq_succ_of_ne_zero inhabited.ne'
  have one : 1 ≤ candidateCount F 0 := Nat.le_max_left _ _
  rw [List.range_succ_eq_map, List.map_cons, List.sum_cons]
  omega

theorem size_offered {n : ℕ} (shaped : FC.Shaped ((List.range n).map (candidateCount F)).sum w)
    {i : ℕ} (inside : i < n) : ∀ c ∈ offered F FC i, c.size = w := by
  intro c hc
  obtain ⟨k, hk, rfl⟩ := List.mem_map.mp hc
  have below := List.mem_range.mp hk
  obtain ⟨rest, rfl⟩ : ∃ rest, n = i + 1 + rest := ⟨n - (i + 1), by omega⟩
  apply shaped.row
  rw [List.range_add, List.map_append, List.sum_append, List.range_succ, List.map_append,
    List.sum_append]
  simp only [List.map_cons, List.map_nil, List.sum_cons, List.sum_nil]
  omega

/-- What a step has evaluated is as wide as the fitness of the population. -/
theorem evaluate_wide (full : evaluator.Full) (formed : s.1.Formed) (known : s.1.F = some F)
    (shaped : F.Shaped s.1.popSize w) (some : 0 < C.size) :
    Ends (evaluate evaluator C) s (fun s' => s'.1.F = s.1.F) fun FC s' =>
      FC.Shaped C.size w ∧ s'.1.F = s.1.F := by
  refine (((evaluate_assesses C).and_ensures (evaluate_formed full formed C).ensures)).mono
    (fun s' same => same.population.2.2.1) ?_
  rintro FC s' ⟨same, formed', -, measured⟩
  have kept := same.population.2.2.1
  obtain ⟨v, measured, rows⟩ := measured some
  obtain ⟨shaped', first'⟩ := formed'.size_row (kept.trans known) measured
  have first := shaped.row formed.inhabited
  rw [first'] at first
  exact ⟨first ▸ rows, kept⟩

/-- In one step every firefly holds the fitness it had before the step and then that of each of its
candidates that it accepts, none of which is dominated by the one before. So the fitness stored
after the step is not dominated by the one before the step if there is a single objective, or if no
more than one candidate was accepted. A step that fails leaves the fitness of all fireflies as it
was. -/
theorem step_walks (settings : Settings) (full : evaluator.Full) (formed : s.1.Formed)
    (known : s.1.F = some F) :
    Ends (step settings evaluator) s (fun s' => s'.1.F = some F) fun _ s' =>
      ∃ C FC F' answers s₁ s₂, C.size = ((List.range s.1.popSize).map (candidateCount F)).sum ∧
        Redrawn s.1 s₁.1 ∧ Assessed evaluator C FC s₁ answers s₂ ∧ s'.1.F = some F' ∧
        ∀ i < s.1.popSize,
          (trail (F.row i) (offered F FC i)).getLast? = some (F'.row i) ∧
          (trail (F.row i) (offered F FC i)).IsChain
            (fun f g => Dominance.dominates f g = false) ∧
          ((trail (F.row i) (offered F FC i)).length ≤ 2 ∨ s.1.nObj = some 1 →
            Dominance.dominates (F.row i) (F'.row i) = false) := by
  obtain ⟨w, measured, shaped⟩ := formed.fitness F known
  have fitness : s.1.fitness = .ok F := by rw [Run.fitness, known]
  simp only [step, ends_bind, ends_current, ends_ofExcept, ends_update, fitness]
  refine ⟨?_, fun _ failed => by cases failed⟩
  rintro _ ⟨⟩
  refine ((redraws_perIndividual _).and_ensures (candidates_drawn settings s.1 F)).mono ?_ ?_
  · rintro s₁ ⟨_, drawn⟩
    rw [drawn]
    exact known
  rintro drawn s₁ ⟨redrawn, counted, -⟩
  have known₁ : s₁.1.F = some F := by
    obtain ⟨_, same⟩ := redrawn
    rw [same]
    exact known
  have popSize₁ : s₁.1.popSize = s.1.popSize := by
    obtain ⟨_, same⟩ := redrawn
    rw [same]
  generalize candidates : s.1.bounds.clipRows (drawn.toList.flatMap id).toArray = C
  have size : C.size = ((List.range s.1.popSize).map (candidateCount F)).sum := by
    rw [← candidates, Bounds.size_clipRows, ← counted]
    simp
  have some : 0 < C.size := size ▸ sum_candidateCount_pos formed.inhabited
  refine ((evaluate_wide full (formed.redrawn redrawn) known₁ (popSize₁ ▸ shaped) some).and_ensures
    (evaluate_assessed C)).mono (fun s₂ kept => kept.trans known₁) ?_
  rintro FC s₂ ⟨⟨wide, kept⟩, answers, assessed⟩
  rw [counted]
  have each : ((List.range s.1.popSize).map (candidateCount F)).length = F.size := by
    simp [shaped.size]
  obtain ⟨F', known', -, ends⟩ := settleAll_fitness C FC (kept.trans known₁) each
  refine ⟨C, FC, F', answers, s₁, s₂, size, redrawn, assessed, known', fun i inside => ?_⟩
  have last := ends i (by rwa [shaped.size])
  rw [stretch_candidateCount inside] at last
  have start : (F.row i).size = w := shaped.row inside
  have sizes := size_offered (F := F) (size ▸ wide) inside
  refine ⟨last, isChain_trail start sizes, fun few => dominates_last_trail start sizes last ?_⟩
  refine few.imp_right fun single => ?_
  have width := measured.2.symm.trans single
  simpa using width

section Outshone

open Run

/-- Three fireflies are answered with a first one that both others outshine, and their candidates
with two that the first one accepts, and with what the others have already. -/
def twoSteps : Evaluator Unit Float Nat :=
  fun X => return ⟨.ofRows 2 (if X.size = 3
    then #[#[2.0, 2.0], #[1.5, 1.0], #[1.0, 1.5]]
    else #[#[1.0, 9.0], #[3.0, 3.0], #[1.5, 1.0], #[1.0, 1.5]]), none⟩

theorem twoSteps_full : twoSteps.Full := by
  intro rows session block session' answered
  cases answered
  have even : ∀ r ∈ (if rows.size = 3
      then (#[#[2.0, 2.0], #[1.5, 1.0], #[1.0, 1.5]] : Rows Float)
      else #[#[1.0, 9.0], #[3.0, 3.0], #[1.5, 1.0], #[1.0, 1.5]]).toList, r.size = 2 := by
    split <;> decide +kernel
  simp [Block.Full, Tensor.ofRows, Tensor.size_flatten even, Tensor.places]

def outshone : Run Float Nat × Session Unit :=
  ((Call.perform twoSteps .evaluateAll).run
    ((Call.perform twoSteps (.setPositions ⟨[3, 1], #[0.0, 0.5, 1.0]⟩ none)).run
      (.start .unitInterval 3 none .absent 0, ⟨(), #[]⟩)).2).2

theorem outshone_visited : Visited twoSteps outshone :=
  .called (.called (.start .unitInterval (by decide) none .absent 0 ⟨(), #[]⟩) _) _

/-- The second firefly has one candidate, and is not worse after the step. -/
theorem step_walks_outshone :
    ∃ s' F F', (step {} twoSteps).run outshone = (.ok (), s') ∧ outshone.1.F = some F ∧
      s'.1.F = some F' ∧ Dominance.dominates (F.row 1) (F'.row 1) = false := by
  obtain ⟨F, known, few⟩ : ∃ F, outshone.1.F = some F ∧ (candidateCount F 1 == 1) = true :=
    Option.any_eq_true _ _ |>.mp (by decide +kernel)
  have success : ((step {} twoSteps).run outshone).1.toBool = true := by decide +kernel
  have ends := step_walks {} twoSteps_full (visited_formed twoSteps_full outshone_visited) known
  unfold Ends at ends
  cases hrun : (step {} twoSteps).run outshone with
  | mk r s' =>
    rw [hrun] at success ends
    cases r with
    | error e => cases success
    | ok _ =>
      obtain ⟨C, FC, F', answers, s₁, s₂, -, -, -, known', walks⟩ := ends
      refine ⟨s', F, F', rfl, known, known', (walks 1 (by decide +kernel)).2.2 (.inl ?_)⟩
      have one : (offered F FC 1).length = 1 := by
        rw [offered, stretch, List.length_map, List.length_range]
        exact eq_of_beq few
      have short := length_trail_le (F.row 1) (offered F FC 1)
      rwa [one] at short

/-- The first firefly moves twice, and has become worse after the step. -/
theorem step_worsens :
    ∃ s' F F', (step {} twoSteps).run outshone = (.ok (), s') ∧ outshone.1.F = some F ∧
      s'.1.F = some F' ∧ Dominance.dominates (F.row 0) (F'.row 0) = true := by
  have success : ((step {} twoSteps).run outshone).1.toBool = true := by decide +kernel
  have worse : outshone.1.F.any (fun F => ((step {} twoSteps).run outshone).2.1.F.any fun F' =>
      Dominance.dominates (F.row 0) (F'.row 0)) = true := by decide +kernel
  cases hrun : (step {} twoSteps).run outshone with
  | mk r s' =>
    rw [hrun] at success worse
    cases r with
    | error e => cases success
    | ok _ =>
      obtain ⟨F, known, after⟩ := (Option.any_eq_true _ _).mp worse
      obtain ⟨F', known', dominated⟩ := (Option.any_eq_true _ _).mp after
      exact ⟨s', F, F', rfl, known, known', dominated⟩

end Outshone

end Firefly

end BoxSearch
