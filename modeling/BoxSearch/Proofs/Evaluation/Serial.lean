import BoxSearch.Problem.Basic
import BoxSearch.Proofs.Except
import BoxSearch.Proofs.Run.Agreement

/-!
Batch evaluation of an objective that is a function of the point.

Such an objective leaves the caller's state alone, so evaluating a batch is a function of its rows:
`blockOf`. It gives a block if and only if every row has a fitness vector and all of these have one
width, the declared one if a width is declared. Otherwise it fails, and the failure is one of an
evaluation unless a number of an answer is too large for any float.
-/

namespace BoxSearch

namespace Problem

variable {σ : Type}

/-- The objective is a function of the point: the caller's state plays no part in it. -/
def Answers (p : Problem σ) (g : Row Float → Except Raised Value) : Prop :=
  ∀ x s, (p.objective x).run s = (g x, s)

/-- Fitness value and payload that an answer consists of. -/
def split (p : Problem σ) (x : Row Float) (answer : Value) : Except Error (Value × Option Value) :=
  if p.returnsProduct then
    match answer with
    | .tuple [fitness, product] => .ok (fitness, some product)
    | other => .error (.evaluation (.noProduct p.name other) (some x))
  else .ok (answer, none)

/-- Fitness value and payload of one point. -/
def answered (p : Problem σ) (g : Row Float → Except Raised Value) (x : Row Float) :
    Except Error (Value × Option Value) :=
  match g x with
  | .error failure => .error (.evaluation (.raised p.name failure.kind failure.shown) (some x))
  | .ok answer => p.split x answer

/-- Fitness vector and payload of one point. -/
def rated (p : Problem σ) (g : Row Float → Except Raised Value) (x : Row Float) :
    Except Error (Row Float × Option Value) := do
  let (answer, product) ← p.answered g x
  let f ← p.fitnessOf x answer
  return (f, product)

/-- The block of a batch. -/
def blockOf (p : Problem σ) (g : Row Float → Except Raised Value) (X : Rows Float) :
    Except Error (Block Float Value) := do
  let answers ← X.toList.mapM (p.rated g)
  let fitness ← p.stack X (answers.map (·.1)).toArray
  return ⟨fitness, if p.returnsProduct then some (answers.map (·.2)).toArray else none⟩

variable {p : Problem σ} {g : Row Float → Except Raised Value}

private theorem attempt_run (h : p.Answers g) (x : Row Float) (s : Session σ) :
    (Act.attempt (p.objective x)).run s = (.ok (g x), s) := by
  change (Except.ok ((p.objective x).run s.user).1,
    { s with user := ((p.objective x).run s.user).2 }) = _
  rw [h x s.user]

theorem answerAt_run (h : p.Answers g) (x : Row Float) (s : Session σ) :
    (p.answerAt x).run s = (p.answered g x, s) := by
  rw [answerAt, run_bind, attempt_run h, answered]
  cases g x with
  | error failure => rfl
  | ok answer =>
    unfold split
    dsimp only
    by_cases flagged : p.returnsProduct = true
    · rw [if_pos flagged, if_pos flagged]
      match answer with
      | .tuple [_, _] => rfl
      | .tuple [] | .tuple [_] | .tuple (_ :: _ :: _ :: _) => rfl
      | .absent | .bool _ | .int _ | .float _ | .text _ | .list _ | .record _ | .object .. => rfl
    · rw [if_neg flagged, if_neg flagged]
      rfl

theorem answer_run (h : p.Answers g) (x : Row Float) (s : Session σ) :
    (do
      let (answer, product) ← p.answerAt x
      let f ← p.fitnessOf x answer
      return (f, product) : Act σ (Row Float × Option Value)).run s = (p.rated g x, s) := by
  rw [run_bind, answerAt_run h, rated]
  cases p.answered g x with
  | error e => rfl
  | ok parts =>
    obtain ⟨answer, product⟩ := parts
    dsimp only
    rw [run_bind, run_liftM]
    change _ = ((p.fitnessOf x answer).bind fun f => .ok (f, product), s)
    cases p.fitnessOf x answer <;> rfl

theorem answersOf_run (h : p.Answers g) (X : Rows Float) (s : Session σ) :
    (p.answersOf X).run s = ((X.toList.mapM (p.rated g)).map List.toArray, s) := by
  rw [answersOf, Array.mapM_eq_mapM_toList]
  have each (xs : List (Row Float)) :
      (xs.mapM fun x => (do
        let (answer, product) ← p.answerAt x
        let f ← p.fitnessOf x answer
        return (f, product) : Act σ (Row Float × Option Value))).run s =
      (xs.mapM (p.rated g), s) := by
    induction xs with
    | nil => rfl
    | cons x xs ih =>
      rw [List.mapM_cons, List.mapM_cons, run_bind, answer_run h]
      cases p.rated g x with
      | error e => rfl
      | ok y =>
        dsimp only
        rw [run_bind, ih]
        cases xs.mapM (p.rated g) <;> rfl
  rw [map_eq_pure_bind, run_bind, each]
  cases X.toList.mapM (p.rated g) <;> rfl

/-- Evaluating a batch is a function of its rows. -/
theorem evaluate_run (h : p.Answers g) (X : Rows Float) (s : Session σ) :
    (p.evaluate X).run s = (p.blockOf g X, s) := by
  rw [evaluate, run_bind, answersOf_run h, blockOf]
  cases X.toList.mapM (p.rated g) with
  | error e => rfl
  | ok answers =>
    have first : (answers.toArray.map (·.1)) = (answers.map (·.1)).toArray := by simp
    have second : (answers.toArray.map (·.2)) = (answers.map (·.2)).toArray := by simp
    change ((do
      let fitness ← p.stack X (answers.toArray.map (·.1))
      return ⟨fitness, if p.returnsProduct then some (answers.toArray.map (·.2)) else none⟩ :
        Act σ (Block Float Value))).run s = ((do
      let fitness ← p.stack X (answers.map (·.1)).toArray
      return ⟨fitness, if p.returnsProduct then some (answers.map (·.2)).toArray else none⟩), s)
    rw [first, second]
    cases p.stack X (answers.map (·.1)).toArray <;> rfl

/-- No answer holds a whole number too large for a float. -/
def Measurable (p : Problem σ) (g : Row Float → Except Raised Value) : Prop :=
  ∀ x answer product, p.answered g x = .ok (answer, product) →
    answer.toTensor ≠ .error (.fault .overflow)

/-- A float, or a flat list of floats. -/
inductive Plain : Value → Prop
  | float (x : Float) : Plain (.float x)
  | list (xs : List Float) : Plain (.list (xs.map .float))
  | tuple (xs : List Float) : Plain (.tuple (xs.map .float))

private theorem toTensor_of_entries {v : Value} {xs : List Float} (h : v.entries = .ok xs) :
    v.toTensor ≠ .error (.fault .overflow) := by
  rw [Value.toTensor]
  cases v.shape? with
  | none => simp
  | some shape =>
    rw [h]
    simp [bind, Except.bind, pure, Except.pure]

private theorem entriesOf_floats (xs : List Float) :
    Value.entriesOf (xs.map .float) = .ok xs := by
  induction xs with
  | nil => rfl
  | cons x xs ih =>
    rw [List.map_cons, Value.entriesOf, ih]
    rfl

/-- An objective that answers with plain numbers only is measurable. -/
theorem measurable_of_plain
    (plain : ∀ x answer product, p.answered g x = .ok (answer, product) → Plain answer) :
    p.Measurable g := by
  intro x answer product answered
  cases plain x answer product answered with
  | float y => exact toTensor_of_entries (show Value.entries (.float y) = .ok [y] from rfl)
  | list ys => exact toTensor_of_entries (entriesOf_floats ys)
  | tuple ys => exact toTensor_of_entries (entriesOf_floats ys)

/-- The fitness vector of a point that has one. -/
def fitnessAt (p : Problem σ) (g : Row Float → Except Raised Value) (x : Row Float) : Row Float :=
  match p.rated g x with
  | .ok (f, _) => f
  | .error _ => #[]

/-- The payload of a point that has a fitness vector. -/
def productAt (p : Problem σ) (g : Row Float → Except Raised Value) (x : Row Float) :
    Option Value :=
  match p.rated g x with
  | .ok (_, product) => product
  | .error _ => none

/-- Unless the objective answers with payloads there are none. -/
theorem productAt_plain (plain : p.returnsProduct = false) (x : Row Float) :
    p.productAt g x = none := by
  rw [productAt, rated, answered]
  cases g x with
  | error failure => rfl
  | ok answer =>
    have whole : p.split x answer = .ok (answer, none) := by simp [split, plain]
    simp only [whole]
    cases measured : p.fitnessOf x answer with
    | error e => simp [measured, bind, Except.bind]
    | ok f => simp [measured, bind, Except.bind, pure, Except.pure]
/-- Every row has a fitness vector of width `w`, which is the declared width if one is declared. -/
structure Fits (p : Problem σ) (g : Row Float → Except Raised Value) (w : Nat) (X : Rows Float) :
    Prop where
  declared : ∀ n, p.nObj = some n → n = w
  rows : ∀ x ∈ X.toList, ∃ f product, p.rated g x = .ok (f, product) ∧ f.size = w

theorem rated_eq {w : Nat} {X : Rows Float} (fits : p.Fits g w X) :
    ∀ x ∈ X.toList, p.rated g x = .ok (p.fitnessAt g x, p.productAt g x) := by
  intro x hx
  obtain ⟨f, product, rated, _⟩ := fits.rows x hx
  simp [fitnessAt, productAt, rated]

theorem size_fitnessAt {w : Nat} {X : Rows Float} (fits : p.Fits g w X) :
    ∀ x ∈ X.toList, (p.fitnessAt g x).size = w := by
  intro x hx
  obtain ⟨f, product, rated, size⟩ := fits.rows x hx
  simp [fitnessAt, rated, size]

/-- The fitness vectors of a batch that fits have one width. -/
theorem even_fitnessAt {w : Nat} {X : Rows Float} (fits : p.Fits g w X) :
    ∀ r ∈ (X.map (p.fitnessAt g)).toList, r.size = w := by
  intro r hr
  rw [Array.toList_map] at hr
  obtain ⟨x, hx, rfl⟩ := List.mem_map.mp hr
  exact size_fitnessAt fits x hx

private theorem mem_row {rows : Rows Float} {i : Nat} (h : i < rows.size) :
    rows.row i ∈ rows.toList := by
  simp [Rows.row, h]

theorem uneven?_eq_none_iff {rows : Rows Float} :
    uneven? rows = none ↔ ∀ r ∈ rows.toList, r.size = (rows.row 0).size := by
  rw [uneven?, List.find?_eq_none]
  constructor
  · intro h r hr
    obtain ⟨i, hi, rfl⟩ := List.mem_iff_getElem.mp hr
    have hi' : i < rows.size := by simpa using hi
    simpa [Rows.row, hi'] using h i (List.mem_range.mpr hi')
  · intro h i hi
    simpa using h _ (mem_row (List.mem_range.mp hi))

/-- Rows of one width, which is the declared one, make a block. -/
theorem stack_eq_ok {w : Nat} {X rows : Rows Float} (nonempty : 0 < rows.size)
    (declared : ∀ n, p.nObj = some n → n = w) (even : ∀ r ∈ rows.toList, r.size = w) :
    p.stack X rows = .ok (.ofRows w rows) := by
  have first : rows[0]? = some (rows.row 0) := by simp [Rows.row, nonempty]
  have width : (rows.row 0).size = w := even _ (mem_row nonempty)
  have none : uneven? rows = none :=
    uneven?_eq_none_iff.mpr fun r hr => (even r hr).trans width.symm
  simp only [stack, first, none, width]
  cases hn : p.nObj with
  | none => rfl
  | some n => simp [declared n hn]

/-- Rows that make a block have one width, which is the declared one. -/
theorem of_stack_eq_ok {X rows : Rows Float} {t : Tensor Float} (nonempty : 0 < rows.size)
    (h : p.stack X rows = .ok t) :
    (∀ n, p.nObj = some n → n = (rows.row 0).size) ∧
      ∀ r ∈ rows.toList, r.size = (rows.row 0).size := by
  have first : rows[0]? = some (rows.row 0) := by simp [Rows.row, nonempty]
  simp only [stack, first] at h
  cases even : uneven? rows with
  | some i =>
    rw [even] at h
    cases h
  | none =>
    refine ⟨fun n hn => ?_, uneven?_eq_none_iff.mp even⟩
    rw [even, hn] at h
    by_cases width : ((rows.row 0).size != n) = true
    · simp only [if_pos width] at h
      cases h
    · have same : (rows.row 0).size = n := by simpa using width
      exact same.symm

private theorem blockOf_eq {X : Rows Float}
    (rated : ∀ x ∈ X.toList, p.rated g x = .ok (p.fitnessAt g x, p.productAt g x)) :
    p.blockOf g X = (p.stack X (X.map (p.fitnessAt g))).map fun fitness =>
      ⟨fitness, if p.returnsProduct then some (X.map (p.productAt g)) else none⟩ := by
  have first : ((X.toList.map fun x => (p.fitnessAt g x, p.productAt g x)).map (·.1)).toArray =
      X.map (p.fitnessAt g) := by
    rw [List.map_map]
    exact Array.ext' (by simp)
  have second : ((X.toList.map fun x => (p.fitnessAt g x, p.productAt g x)).map (·.2)).toArray =
      X.map (p.productAt g) := by
    rw [List.map_map]
    exact Array.ext' (by simp)
  rw [blockOf, mapM_eq_ok rated]
  change (p.stack X _).bind _ = _
  rw [first, second]
  cases p.stack X (X.map (p.fitnessAt g)) <;> rfl

/-- A batch that fits makes the block of its fitness vectors and payloads. -/
theorem blockOf_of_fits {w : Nat} {X : Rows Float} (fits : p.Fits g w X) (nonempty : 0 < X.size) :
    p.blockOf g X = .ok ⟨.ofRows w (X.map (p.fitnessAt g)),
      if p.returnsProduct then some (X.map (p.productAt g)) else none⟩ := by
  have stacked : p.stack X (X.map (p.fitnessAt g)) = .ok (.ofRows w (X.map (p.fitnessAt g))) := by
    exact stack_eq_ok (by simpa using nonempty) fits.declared (even_fitnessAt fits)
  rw [blockOf_eq (rated_eq fits), stacked]
  rfl

private theorem rated_of_blockOf {X : Rows Float} {b : Block Float Value}
    (h : p.blockOf g X = .ok b) :
    ∀ x ∈ X.toList, p.rated g x = .ok (p.fitnessAt g x, p.productAt g x) := by
  intro x hx
  rw [blockOf] at h
  cases answers : X.toList.mapM (p.rated g) with
  | error e =>
    rw [answers] at h
    cases h
  | ok rows =>
    obtain ⟨⟨f, product⟩, _, rated⟩ := (matched_of_mapM_eq_ok answers).1 x hx
    simp [fitnessAt, productAt, rated]

/-- A batch that makes a block fits. -/
theorem fits_of_blockOf {X : Rows Float} {b : Block Float Value} (nonempty : 0 < X.size)
    (h : p.blockOf g X = .ok b) : ∃ w, p.Fits g w X := by
  have rated := rated_of_blockOf h
  rw [blockOf_eq rated] at h
  cases stacked : p.stack X (X.map (p.fitnessAt g)) with
  | error e =>
    rw [stacked] at h
    cases h
  | ok t =>
    obtain ⟨declared, even⟩ := of_stack_eq_ok (by simpa using nonempty) stacked
    refine ⟨_, declared, fun x hx => ⟨_, _, rated x hx, even _ ?_⟩⟩
    simpa using ⟨x, by simpa using hx, rfl⟩

private theorem answered_error {x : Row Float} {e : Error} (h : p.answered g x = .error e) :
    e.isEvaluation = true := by
  rw [answered] at h
  cases hg : g x with
  | error failure =>
    rw [hg] at h
    cases h
    rfl
  | ok answer =>
    rw [hg] at h
    unfold split at h
    by_cases flagged : p.returnsProduct = true
    · simp only [if_pos flagged] at h
      split at h <;> cases h
      rfl
    · simp only [if_neg flagged] at h
      cases h

private theorem fitnessOf_error {x : Row Float} {answer : Value} {e : Error}
    (small : answer.toTensor ≠ .error (.fault .overflow)) (h : p.fitnessOf x answer = .error e) :
    e.isEvaluation = true := by
  rw [fitnessOf] at h
  split at h
  case h_1 overflow => exact absurd overflow small
  case h_2 =>
    cases h
    rfl
  case h_3 t _ =>
    split at h
    case h_1 => cases h
    case h_2 n _ =>
      by_cases empty : (n == 0) = true
      · rw [if_pos empty] at h
        cases h
        rfl
      · rw [if_neg empty] at h
        cases h
    case h_3 =>
      cases h
      rfl

theorem rated_error (measurable : p.Measurable g) {x : Row Float} {e : Error}
    (h : p.rated g x = .error e) : e.isEvaluation = true := by
  rw [rated] at h
  cases answer : p.answered g x with
  | error e' =>
    rw [answer] at h
    cases h
    exact answered_error answer
  | ok parts =>
    obtain ⟨v, product⟩ := parts
    cases fitness : p.fitnessOf x v with
    | error e' =>
      rw [answer] at h
      simp only [bind, Except.bind, fitness] at h
      cases h
      exact fitnessOf_error (measurable x v product answer) fitness
    | ok f =>
      rw [answer] at h
      simp only [bind, Except.bind, fitness] at h
      cases h

private theorem stack_error {X rows : Rows Float} {e : Error} (h : p.stack X rows = .error e) :
    e.isEvaluation = true := by
  rw [stack] at h
  split at h
  case h_1 => cases h
  case h_2 first _ =>
    split at h
    case h_1 =>
      cases h
      rfl
    case h_2 =>
      split at h
      case h_1 n _ =>
        by_cases width : (first.size != n) = true
        · rw [if_pos width] at h
          cases h
          rfl
        · rw [if_neg width] at h
          cases h
      case h_2 => cases h

/-- A batch that makes no block fails for the sake of an evaluation. -/
theorem blockOf_error (measurable : p.Measurable g) {X : Rows Float} {e : Error}
    (h : p.blockOf g X = .error e) : e.isEvaluation = true := by
  rw [blockOf] at h
  cases answers : X.toList.mapM (p.rated g) with
  | error e' =>
    rw [answers] at h
    cases h
    obtain ⟨x, _, rated⟩ := exists_of_mapM_eq_error answers
    exact rated_error measurable rated
  | ok rows =>
    cases stacked : p.stack X (rows.map (·.1)).toArray with
    | error e' =>
      rw [answers] at h
      simp only [bind, Except.bind, stacked] at h
      cases h
      exact stack_error stacked
    | ok t =>
      rw [answers] at h
      simp only [bind, Except.bind, stacked] at h
      cases h

end Problem

end BoxSearch
