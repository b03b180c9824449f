import Mathlib.Order.Bounds.Basic
import BoxSearch.Proofs.Run.Effects
import BoxSearch.Proofs.Scalar.Akin
import BoxSearch.Proofs.Scalar.Share
import BoxSearch.Stopping.Policy

/-!
When a policy that waits for progress stops a run.

What the policy remembers is a mark and a count. The mark is that of the generation of the last
progress, and the count says how many generations ago that was. The policy therefore stops at the
first generation that looks back on a window of as many generations as it was given, with no
progress inside. Without a tolerance this is said without the mark: the best fitness at both ends of
the window is equal, or the front was the same throughout.
-/

namespace BoxSearch

open OrderedScalar

namespace Binary

/-- A zero taken away leaves a number what it is, but may change the sign of another zero. -/
theorem akin_sub_zero {x zero : Float} (number : x ≤ x) (h : (zero == Scalar.zero) = true) :
    Akin (x - zero) x := by
  obtain ⟨t, ht⟩ : ∃ t, zero.toModel.unpack = .zero t := by
    rcases unpackedAkin_of_akin (.inr h) with same | ⟨t, -, ht, -⟩
    · exact ⟨.positive, same⟩
    · exact ⟨t, ht⟩
  have proper : x.toModel.unpack ≠ .notANumber := by
    intro missing
    obtain ⟨p, -, hp, -⟩ := (le_iff_place x x).mp number
    rw [place, missing] at hp
    cases hp
  have difference : UnpackedAkin (.sub .binary64 x.toModel.unpack zero.toModel.unpack)
      x.toModel.unpack := by
    rw [ht]
    rcases hx : x.toModel.unpack with s | _ | s | _
    case notANumber => exact absurd hx proper
    case zero => cases s <;> cases t <;> exact .inr ⟨_, _, rfl, rfl⟩
    all_goals exact .inl rfl
  have packed := akin_pack difference
  rw [pack_unpack proper] at packed
  exact packed

end Binary

namespace Tensor

variable {α : Type} [Scalar α]

/-- Two arrays are the same: one shape, and equal entries in the same places. -/
structure Same (t u : Tensor α) : Prop where
  shape : t.shape = u.shape
  entries : List.Forall₂ (fun x y => (x == y) = true) t.entries.toList u.entries.toList

theorem sameArray_iff {t u : Tensor α} : Stall.sameArray t u = true ↔ t.Same u := by
  simp only [Stall.sameArray, Bool.and_eq_true, beq_iff_eq, List.all_eq_true, List.mem_range]
  constructor
  · rintro ⟨⟨shape, size⟩, equal⟩
    refine ⟨shape, List.forall₂_iff_get.mpr ⟨by simpa using size, fun i hi hi' => ?_⟩⟩
    have entry := equal i (by simpa using hi)
    simp only [Array.length_toList] at hi hi'
    simpa [Array.getD, hi, hi'] using entry
  · rintro ⟨shape, entries⟩
    obtain ⟨length, equal⟩ := List.forall₂_iff_get.mp entries
    simp only [Array.length_toList] at length equal
    refine ⟨⟨shape, length⟩, fun i hi => ?_⟩
    have hi' : i < u.entries.size := length ▸ hi
    simpa [Array.getD, hi, hi'] using equal i hi hi'

variable [OrderedScalar α] {t u v : Tensor α}

theorem Same.symm (h : t.Same u) : u.Same t :=
  ⟨h.shape.symm, h.entries.flip.imp fun _ _ equal => beq_iff.mpr (beq_iff.mp equal).symm⟩

theorem Same.trans (h : t.Same u) (h' : u.Same v) : t.Same v := by
  refine ⟨h.shape.trans h'.shape, ?_⟩
  obtain ⟨length, equal⟩ := List.forall₂_iff_get.mp h.entries
  obtain ⟨length', equal'⟩ := List.forall₂_iff_get.mp h'.entries
  exact List.forall₂_iff_get.mpr ⟨length.trans length', fun i hi hi' =>
    Scalar.beq_trans (equal i hi (length ▸ hi)) (equal' i (length ▸ hi) hi')⟩

end Tensor

section LastProgress

variable {progress : ℕ → ℕ → Bool} {n g : ℕ}

/-- The last generation up to `g` that made progress over the one that was the last before, where
generation 0 counts as the first. -/
def lastProgress (progress : ℕ → ℕ → Bool) : ℕ → ℕ
  | 0 => 0
  | g + 1 => if progress (lastProgress progress g) (g + 1) then g + 1 else lastProgress progress g

theorem lastProgress_le (g : ℕ) : lastProgress progress g ≤ g := by
  induction g with
  | zero => exact le_rfl
  | succ g ih =>
    unfold lastProgress
    split <;> omega

/-- No later generation made progress over the last one that did. -/
theorem idle_since {k : ℕ} (later : lastProgress progress g < k) (upto : k ≤ g) :
    progress (lastProgress progress g) k = false := by
  induction g with
  | zero => omega
  | succ g ih =>
    unfold lastProgress at later ⊢
    split at later
    case isTrue => omega
    case isFalse idle =>
      rw [if_neg idle]
      rcases upto.lt_or_eq with early | rfl
      · exact ih later (by omega)
      · simpa using idle

/-- Where the count first gets to `n`, the last progress is exactly `n` generations ago. -/
theorem lastProgress_eq (positive : 1 ≤ n) (reached : n ≤ g - lastProgress progress g)
    (first : ∀ h < g, ¬n ≤ h - lastProgress progress h) : lastProgress progress g = g - n := by
  obtain ⟨h, rfl⟩ : ∃ h, g = h + 1 := Nat.exists_eq_succ_of_ne_zero (by omega)
  have before := first h (Nat.lt_succ_self h)
  unfold lastProgress at reached ⊢
  split at reached
  case isTrue => omega
  case isFalse idle =>
    rw [if_neg idle]
    omega

variable {Alike : ℕ → ℕ → Prop}

/-- Generations that are alike one to the other, once no later one is progress: the count is at
least `n` if and only if all of the window of the last `n` generations are alike. -/
theorem le_count_iff (idle : ∀ i j, i < j → (progress i j = false ↔ Alike i j))
    (symm : ∀ i j, Alike i j → Alike j i)
    (trans : ∀ i j k, Alike i j → Alike j k → Alike i k) (positive : 1 ≤ n) :
    n ≤ g - lastProgress progress g ↔
      n ≤ g ∧ ∀ i j, g - n ≤ i → i < j → j ≤ g → Alike i j := by
  have alike (g k : ℕ) (later : lastProgress progress g < k) (upto : k ≤ g) :
      Alike (lastProgress progress g) k :=
    (idle _ _ later).mp (idle_since later upto)
  constructor
  · intro reached
    refine ⟨by omega, fun i j inside before upto => ?_⟩
    have second := alike g j (by omega) upto
    rcases (show lastProgress progress g ≤ i by omega).lt_or_eq with later | rfl
    · exact trans _ _ _ (symm _ _ (alike g i later (by omega))) second
    · exact second
  · rintro ⟨long, same⟩
    -- progress inside the window would be over a generation that is alike to the one before it
    have outside : ∀ k, g - n ≤ k → k ≤ g → lastProgress progress k ≤ g - n := by
      intro k inside
      induction k, inside using Nat.le_induction with
      | base => exact fun _ => lastProgress_le _
      | succ k inside ih =>
        intro upto
        have early := ih (by omega)
        unfold lastProgress
        split
        case isFalse => exact early
        case isTrue made =>
          have step := same k (k + 1) inside (Nat.lt_succ_self k) upto
          have chain : Alike (lastProgress progress k) (k + 1) := by
            have before : lastProgress progress k ≤ k := lastProgress_le k
            rcases before.lt_or_eq with later | now
            · exact trans _ _ _ (alike k k later le_rfl) step
            · rwa [now]
          rw [(idle _ _ (by omega)).mpr chain] at made
          cases made
    have := outside g (by omega) le_rfl
    omega

/-- The first generation whose count is at least `n`, told by what the count means. -/
theorem find_iff_isLeast {N : ℕ} {Waited : ℕ → Prop} (positive : 1 ≤ n)
    (meaning : ∀ k, n ≤ k - lastProgress progress k ↔ n ≤ k ∧ Waited k) :
    (List.range' 1 N).find? (fun k => decide (n ≤ k - lastProgress progress k)) = some g ↔
      g ≤ N ∧ IsLeast {k | n ≤ k ∧ Waited k} g := by
  simp only [List.find?_range'_eq_some, decide_eq_true_eq, List.mem_range'_1, Bool.not_eq_true',
    decide_eq_false_iff_not, meaning]
  constructor
  · rintro ⟨holds, inside, least⟩
    refine ⟨by omega, holds, fun k waited => ?_⟩
    by_contra earlier
    have after : n ≤ k := waited.1
    exact least k (by omega) (by omega) waited
  · rintro ⟨upto, holds, least⟩
    have after : n ≤ g := holds.1
    refine ⟨holds, by omega, fun k _ earlier waited => ?_⟩
    have := least waited
    omega

/-- Such a generation is no progress over the one `n` before it. -/
theorem idle_of_find {N : ℕ} (positive : 1 ≤ n)
    (h : (List.range' 1 N).find? (fun k => decide (n ≤ k - lastProgress progress k)) = some g) :
    n ≤ g ∧ progress (g - n) g = false := by
  have meaning (k : ℕ) : n ≤ k - lastProgress progress k ↔
      n ≤ k ∧ n ≤ k - lastProgress progress k :=
    (and_iff_right_of_imp fun waited => by omega).symm
  obtain ⟨-, ⟨long, reached⟩, least⟩ := (find_iff_isLeast positive meaning).mp h
  have window : lastProgress progress g = g - n := by
    refine lastProgress_eq positive reached fun k earlier waited => ?_
    have late : g ≤ k := least ((meaning k).mp waited)
    omega
  rw [← window]
  exact ⟨long, idle_since (by omega) le_rfl⟩

end LastProgress

namespace Policy

variable {σ : Type} {p : Policy σ Float} {n : ℕ} {tol : Float} {clock : Call σ Float}
  {session : Session σ} {view : ℕ → View Float}

/-- Asks whether the rule holds at one view after another, from number `g` on, up to the first that
it holds at, but at no more than `count` of them. -/
def firstHolding (p : Policy σ Float) (clock : Call σ Float) (view : ℕ → View Float) :
    ℕ → ℕ → Watch Float → Act σ (Option ℕ)
  | 0, _, _ => return none
  | count + 1, g, watch => do
    let (holds, watch) ← p.ruleHolds clock watch (view g)
    if holds then return some g
    else p.firstHolding clock view count (g + 1) watch

/-- The policy starts at view 0 and is asked about the views 1 to `N`, up to the first that its rule
holds at. -/
def firstStop (p : Policy σ Float) (clock : Call σ Float) (view : ℕ → View Float) (N : ℕ) :
    Act σ (Option ℕ) := do
  p.firstHolding clock view N 1 (← p.start clock (view 0))

theorem ruleHolds_stall (rule : p.rule = .stall n tol) {stall : Stall Float} {since : Option Float}
    {v : View Float} {b : Bool}
    (improved : Stall.improved tol stall.mark (Stall.markOf v) = .ok b) :
    (p.ruleHolds clock ⟨stall, since⟩ v).run session =
      let next : Stall Float := if b then ⟨Stall.markOf v, 0⟩ else ⟨stall.mark, stall.stalled + 1⟩
      (.ok (decide (n ≤ next.stalled), ⟨next, since⟩), session) := by
  have observed : stall.observe tol v =
      .ok (if b then ⟨Stall.markOf v, 0⟩ else ⟨stall.mark, stall.stalled + 1⟩) := by
    cases b <;> simp [Stall.observe, improved] <;> rfl
  simp only [ruleHolds, rule, observed]
  rfl

theorem start_stall (rule : p.rule = .stall n tol) (v : View Float) :
    (p.start clock v).run session = (.ok ⟨.start v, none⟩, session) := by
  simp only [start, rule]
  rfl

variable {progress : ℕ → ℕ → Bool}

/-- The mark is that of the last progress, and the count is how long ago that was. -/
theorem firstHolding_run (rule : p.rule = .stall n tol)
    (compared : ∀ i j, i < j →
      Stall.improved tol (Stall.markOf (view i)) (Stall.markOf (view j)) = .ok (progress i j))
    (count g : ℕ) :
    (p.firstHolding clock view count (g + 1)
        ⟨⟨Stall.markOf (view (lastProgress progress g)), g - lastProgress progress g⟩,
          none⟩).run session =
      (.ok ((List.range' (g + 1) count).find? fun k =>
        decide (n ≤ k - lastProgress progress k)), session) := by
  induction count generalizing g with
  | zero => rfl
  | succ count ih =>
    have before : lastProgress progress g ≤ g := lastProgress_le g
    have holds : (p.ruleHolds clock ⟨⟨Stall.markOf (view (lastProgress progress g)),
        g - lastProgress progress g⟩, none⟩ (view (g + 1))).run session = _ :=
      ruleHolds_stall rule (compared (lastProgress progress g) (g + 1) (by omega))
    have next : (if progress (lastProgress progress g) (g + 1) then
          (⟨Stall.markOf (view (g + 1)), 0⟩ : Stall Float)
        else ⟨Stall.markOf (view (lastProgress progress g)),
          g - lastProgress progress g + 1⟩) =
        ⟨Stall.markOf (view (lastProgress progress (g + 1))),
          g + 1 - lastProgress progress (g + 1)⟩ := by
      conv_rhs => unfold lastProgress
      split
      · simp
      · simp only [Stall.mk.injEq, true_and]
        omega
    rw [next] at holds
    dsimp only at holds
    rw [firstHolding, run_bind, holds, List.range'_succ, List.find?_cons]
    cases decide (n ≤ g + 1 - lastProgress progress (g + 1)) with
    | true => rfl
    | false => exact ih (g + 1)

theorem firstStop_run (rule : p.rule = .stall n tol)
    (compared : ∀ i j, i < j →
      Stall.improved tol (Stall.markOf (view i)) (Stall.markOf (view j)) = .ok (progress i j))
    (N : ℕ) :
    (p.firstStop clock view N).run session =
      (.ok ((List.range' 1 N).find? fun k =>
        decide (n ≤ k - lastProgress progress k)), session) := by
  rw [firstStop, run_bind, start_stall rule]
  exact firstHolding_run rule compared N 0

/-- One objective is seen, and the best fitness at view `g` is `b g`. -/
def ShowsBest (view : ℕ → View Float) (b : ℕ → Float) : Prop :=
  ∀ g, (view g).isMultiObjective = false ∧ (view g).bestF = some (.number (b g))

/-- Several objectives are seen, and the front at view `g` is `T g`. -/
def ShowsFront (view : ℕ → View Float) (T : ℕ → Tensor Float) : Prop :=
  ∀ g, (view g).isMultiObjective = true ∧ (view g).frontF = some (T g)

section Best

variable {b : ℕ → Float}

theorem improved_best (shows : ShowsBest view b) (i j : ℕ) :
    Stall.improved tol (Stall.markOf (view i)) (Stall.markOf (view j)) =
      .ok (decide (b j < b i - tol)) := by
  simp [Stall.markOf, shows i, shows j, Stall.improved]

variable (zero : (tol == Scalar.zero) = true) (falling : ∀ g, b (g + 1) ≤ b g)
include falling

theorem best_le {i j : ℕ} (h : i ≤ j) : b j ≤ b i := by
  induction j, h using Nat.le_induction with
  | base => exact (le_self_of_le (falling i)).2
  | succ j _ ih => exact le_trans (falling j) ih

include zero

/-- Without a tolerance, a best fitness that does not rise makes progress unless it stays. -/
theorem idle_best_iff (i j : ℕ) (h : i < j) :
    decide (b j < b i - tol) = false ↔ (b i == b j) = true := by
  have below := best_le falling h.le
  have numbers := le_self_of_le below
  have same : b j < b i - tol ↔ b j < b i :=
    (Akin.refl (b j)).lt_iff (Binary.akin_sub_zero numbers.2 zero)
  rw [decide_eq_false_iff_not, same, beq_iff]
  constructor
  · intro stays
    exact ⟨Scalar.le_of_not_lt numbers.1 numbers.2 stays, below⟩
  · intro equal less
    exact Scalar.not_le_of_lt less equal.1

theorem best_count_iff (positive : 1 ≤ n) (k : ℕ) :
    n ≤ k - lastProgress (fun i j => decide (b j < b i - tol)) k ↔
      n ≤ k ∧ (b k == b (k - n)) = true := by
  have window := le_count_iff (n := n) (g := k) (idle_best_iff zero falling)
    (fun i j equal => beq_iff.mpr (beq_iff.mp equal).symm)
    (fun i j k => Scalar.beq_trans) positive
  rw [window]
  refine and_congr_right fun long => ⟨fun alike => ?_, fun ends i j inside before upto => ?_⟩
  · have equal := alike (k - n) k le_rfl (by omega) le_rfl
    exact beq_iff.mpr (beq_iff.mp equal).symm
  · -- between two equal ends nothing falls
    have high := best_le falling inside
    have low := best_le falling upto
    have middle := best_le falling before.le
    exact beq_iff.mpr ⟨le_trans high (le_trans (beq_iff.mp ends).2 low), middle⟩

end Best

section Front

variable {T : ℕ → Tensor Float}

theorem improved_front (shows : ShowsFront view T) (i j : ℕ) :
    Stall.improved tol (Stall.markOf (view i)) (Stall.markOf (view j)) =
      .ok (!Stall.sameArray (T i) (T j)) := by
  simp [Stall.markOf, shows i, shows j, Stall.improved]

theorem front_count_iff (positive : 1 ≤ n) (k : ℕ) :
    n ≤ k - lastProgress (fun i j => !Stall.sameArray (T i) (T j)) k ↔
      n ≤ k ∧ ∀ i j, k - n ≤ i → i < j → j ≤ k → (T i).Same (T j) :=
  le_count_iff (fun i j _ => by rw [Bool.not_eq_false', Tensor.sameArray_iff])
    (fun _ _ => Tensor.Same.symm) (fun _ _ _ => Tensor.Same.trans) positive

end Front

/-- What a policy can be told: to start anew, or to look at one more view. -/
inductive Inquiry where
  | start (view : View Float)
  | ask (view : View Float)

/-- The answers of a policy to one inquiry after another. A start is no question; what fails is
answered by its failure and leaves the policy as it was. -/
def answers (p : Policy σ Float) (clock : Call σ Float) :
    List Inquiry → Watch Float → Act σ (List (Except Error Bool))
  | [], _ => return []
  | .start view :: rest, watch => do
    match ← Act.outcome (p.start clock view) with
    | .ok watch => p.answers clock rest watch
    | .error e => return .error e :: (← p.answers clock rest watch)
  | .ask view :: rest, watch => do
    match ← Act.outcome (p.ruleHolds clock watch view) with
    | .ok (holds, watch) => return .ok holds :: (← p.answers clock rest watch)
    | .error e => return .error e :: (← p.answers clock rest watch)

theorem run_outcome {β : Type} (act : Act σ β) :
    (Act.outcome act).run session = (.ok (act.run session).1, (act.run session).2) := rfl

variable {watch : Watch Float} {after : List Inquiry}

theorem answers_start (rule : p.rule = .stall n tol) (v : View Float) :
    (p.answers clock (.start v :: after) watch).run session =
      (p.answers clock after ⟨.start v, none⟩).run session := by
  rw [answers, run_bind, run_outcome, start_stall rule]

/-- Waiting for progress calls nothing. -/
theorem exists_ruleHolds (rule : p.rule = .stall n tol) (v : View Float) :
    ∃ held, (p.ruleHolds clock watch v).run session = (held, session) := by
  simp only [ruleHolds, rule]
  cases watch.stall.observe tol v <;> exact ⟨_, rfl⟩

variable (clock session) in
/-- The answers to some inquiries come before the answers to those that follow. -/
theorem answers_append (rule : p.rule = .stall n tol) (before : List Inquiry)
    (watch : Watch Float) :
    ∃ given left, ∀ after later,
      (p.answers clock after left).run session = (.ok later, session) →
      (p.answers clock (before ++ after) watch).run session =
        (.ok (given ++ later), session) := by
  induction before generalizing watch with
  | nil => exact ⟨[], watch, fun after later h => h⟩
  | cons inquiry rest ih =>
    cases inquiry with
    | start v =>
      obtain ⟨given, left, answered⟩ := ih ⟨.start v, none⟩
      refine ⟨given, left, fun after later h => ?_⟩
      rw [List.cons_append, answers_start rule]
      exact answered after later h
    | ask v =>
      obtain ⟨held, asked⟩ :
          ∃ held, (p.ruleHolds clock watch v).run session = (held, session) :=
        exists_ruleHolds rule v
      rcases held with e | ⟨holds, next⟩
      · obtain ⟨given, left, answered⟩ := ih watch
        refine ⟨.error e :: given, left, fun after later h => ?_⟩
        rw [List.cons_append, answers, run_bind, run_outcome, asked]
        simp only [run_bind, answered after later h]
        rfl
      · obtain ⟨given, left, answered⟩ := ih next
        refine ⟨.ok holds :: given, left, fun after later h => ?_⟩
        rw [List.cons_append, answers, run_bind, run_outcome, asked]
        simp only [run_bind, answered after later h]
        rfl

variable (clock session) in
theorem answers_succeed (rule : p.rule = .stall n tol) (inquiries : List Inquiry)
    (watch : Watch Float) :
    ∃ given, (p.answers clock inquiries watch).run session = (.ok given, session) := by
  obtain ⟨given, left, answered⟩ := answers_append clock session rule inquiries watch
  have alone := answered [] [] rfl
  rw [List.append_nil] at alone
  exact ⟨_, alone⟩

/-- A policy that waits for `n` generations without progress answers at exactly the first generation
that has seen none for so long. With one objective the last progress is then exactly `n` generations
ago; and where the best fitness never rises and there is no tolerance, the first generation is meant
whose best fitness is that of `n` generations before. With several objectives it is the first whose
front was the same array all the while. Whatever a policy was told before it starts anew has no
influence on its later answers. -/
theorem stall_holds_first (rule : p.rule = .stall n tol) (positive : 1 ≤ n)
    (clock : Call σ Float) (session : Session σ) :
    (∀ view b, ShowsBest view b → ∀ N, ∃ r,
      (p.firstStop clock view N).run session = (.ok r, session) ∧
      (∀ g, r = some g → n ≤ g ∧ ¬b g < b (g - n) - tol) ∧
      ((tol == Scalar.zero) = true → (∀ g, b (g + 1) ≤ b g) →
        ∀ g, r = some g ↔ g ≤ N ∧ IsLeast {k | n ≤ k ∧ (b k == b (k - n)) = true} g)) ∧
    (∀ view T, ShowsFront view T → ∀ N, ∃ r,
      (p.firstStop clock view N).run session = (.ok r, session) ∧
      ∀ g, r = some g ↔ g ≤ N ∧
        IsLeast {k | n ≤ k ∧ ∀ i j, k - n ≤ i → i < j → j ≤ k → (T i).Same (T j)} g) ∧
    ∀ before v after watch fresh, ∃ earlier later,
      (p.answers clock before watch).run session = (.ok earlier, session) ∧
      (p.answers clock (.start v :: after) fresh).run session = (.ok later, session) ∧
      (p.answers clock (before ++ .start v :: after) watch).run session =
        (.ok (earlier ++ later), session) := by
  refine ⟨fun view b shows N => ?_, fun view T shows N => ?_,
    fun before v after watch fresh => ?_⟩
  · refine ⟨_, firstStop_run rule (fun i j _ => improved_best shows i j) N, fun g first => ?_,
      fun zero falling g => find_iff_isLeast positive (best_count_iff zero falling positive)⟩
    obtain ⟨long, idle⟩ := idle_of_find positive first
    exact ⟨long, of_decide_eq_false idle⟩
  · exact ⟨_, firstStop_run rule (fun i j _ => improved_front shows i j) N, fun g =>
      find_iff_isLeast positive (front_count_iff positive)⟩
  · obtain ⟨given, left, answered⟩ := answers_append clock session rule before watch
    obtain ⟨later, told⟩ := answers_succeed clock session rule after ⟨.start v, none⟩
    have alone := answered [] [] rfl
    rw [List.append_nil] at alone
    refine ⟨given ++ [], later, alone, by rw [answers_start rule, told], ?_⟩
    rw [List.append_nil]
    exact answered _ _ (by rw [answers_start rule, told])

/-- A policy that waits for two generations without progress. -/
def waitsForTwo : Policy Unit Float :=
  ⟨.stall 2 0.0, none⟩

/-- A view of which only the fitness matters. -/
def fitnessView (nObj : Int) (bestF : Option (Best Float)) (frontF : Option (Tensor Float)) :
    View Float where
  generation := 0
  nEval := 0
  popSize := 1
  bounds := none
  X := ⟨[1, 1], #[0.0]⟩
  F := none
  nObj := some nObj
  bestX := none
  bestF := bestF
  frontX := none
  frontF := frontF

/-- A fitness that falls twice and then stays. -/
def settling (g : ℕ) : Float :=
  if g = 0 then Scalar.infinity else if g = 1 then 2.0 else 1.0

/-- A front that changes once, by the order of its rows. -/
def swapping (g : ℕ) : Tensor Float :=
  if g = 0 then ⟨[2, 2], #[1.0, 2.0, 2.0, 1.0]⟩ else ⟨[2, 2], #[2.0, 1.0, 1.0, 2.0]⟩

theorem stall_holds_first_settling :
    (waitsForTwo.firstStop (pure 0.0) (fun g => fitnessView 1 (some (.number (settling g))) none)
        9).run ⟨(), #[]⟩ = (.ok (some 4), ⟨(), #[]⟩) ∧
      (waitsForTwo.firstStop (pure 0.0) (fun g => fitnessView 2 none (some (swapping g)))
        9).run ⟨(), #[]⟩ = (.ok (some 3), ⟨(), #[]⟩) := by
  have rule : waitsForTwo.rule = .stall 2 0.0 := rfl
  obtain ⟨single, several, -⟩ :=
    stall_holds_first rule (by decide) (pure 0.0) ⟨(), #[]⟩
  constructor
  · obtain ⟨r, run, -, least⟩ := single
      (fun g => fitnessView 1 (some (.number (settling g))) none) settling
      (fun g => ⟨rfl, rfl⟩) 9
    have falling : ∀ g, settling (g + 1) ≤ settling g := by
      intro g
      match g with
      | 0 => decide +kernel
      | 1 => decide +kernel
      | g + 2 =>
        have same : (1.0 : Float) ≤ 1.0 := by decide +kernel
        simpa [settling] using same
    obtain rfl : r = some 4 := by
      refine (least (by decide +kernel) falling 4).mpr
        ⟨by decide, ⟨by decide, by decide +kernel⟩, ?_⟩
      rintro k ⟨long, equal⟩
      by_contra early
      have place : k = 2 ∨ k = 3 := by omega
      rcases place with rfl | rfl
      · exact absurd equal (by decide +kernel)
      · exact absurd equal (by decide +kernel)
    exact run
  · obtain ⟨r, run, least⟩ := several (fun g => fitnessView 2 none (some (swapping g))) swapping
      (fun g => ⟨rfl, rfl⟩) 9
    have settled : ∀ i, 1 ≤ i → swapping i = ⟨[2, 2], #[2.0, 1.0, 1.0, 2.0]⟩ :=
      fun i late => if_neg (by omega)
    obtain rfl : r = some 3 := by
      refine (least 3).mpr ⟨by decide, ⟨by decide, fun i j inside before upto => ?_⟩, ?_⟩
      · rw [settled i inside, settled j (by omega)]
        exact Tensor.sameArray_iff.mp (by decide +kernel)
      · rintro k ⟨long, same⟩
        by_contra early
        obtain rfl : k = 2 := by omega
        exact absurd (Tensor.sameArray_iff.mpr (same 0 1 (by decide) (by decide) (by decide)))
          (by decide +kernel)
    exact run

end Policy

end BoxSearch
