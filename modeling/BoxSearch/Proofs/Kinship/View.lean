import BoxSearch.Proofs.Kinship.Search
import BoxSearch.Proofs.Run.Congruence
import BoxSearch.Solver.Solve

/-!
What kin runs show.

The views of kin runs differ in the number of evaluations, and otherwise as little as the runs do.
Somebody is blind to the difference who does the same at any two such views. The rules of a policy
are, as long as they do not ask a clock or somebody who is not; so is the observer that logs
progress, since the log is nobody's business.
-/

namespace BoxSearch

variable {σ P : Type} {R S : Float → Float → Prop} {box : Bounds Float} {k : Nat}

/-- Tensors of one shape with kin entries. -/
structure Tensor.Kin (R : Float → Float → Prop) (t t' : Tensor Float) : Prop where
  shape : t.shape = t'.shape
  entries : Related R t.entries t'.entries

namespace Tensor

theorem kin_ofRow {x x' : Row Float} (h : Related R x x') : Kin R (ofRow x) (ofRow x') :=
  ⟨by rw [ofRow, ofRow, h.size_eq], h⟩

theorem kin_ofRows {X X' : Rows Float} (h : Rows.Kin R X X') {width width' : Nat}
    (same : width = width') : Kin R (ofRows width X) (ofRows width' X') :=
  ⟨by rw [ofRows, ofRows, h.size_eq, same], h.flatten⟩

end Tensor

/-- Views of kin runs. The number of evaluations may be any. -/
structure View.Kin (R S : Float → Float → Prop) (v v' : View Float) : Prop where
  generation : v.generation = v'.generation
  popSize : v.popSize = v'.popSize
  bounds : v.bounds = v'.bounds
  X : Tensor.Kin R v.X v'.X
  F : Option.Rel (Tensor.Kin S) v.F v'.F
  nObj : v.nObj = v'.nObj
  bestX : Option.Rel (Tensor.Kin R) v.bestX v'.bestX
  bestF : Option.Rel (Best.Kin S) v.bestF v'.bestF
  frontX : Option.Rel (Tensor.Kin R) v.frontX v'.frontX
  frontF : Option.Rel (Tensor.Kin S) v.frontF v'.frontF

namespace Run.Kin

variable {run run' : Run Float P}

theorem frontX (h : run.Kin R S box k run') :
    Option.Rel (Tensor.Kin R) (run.front?.map fun s => .ofRows s.nVar s.X)
      (run'.front?.map fun s => .ofRows s.nVar s.X) :=
  rel_map h.front? fun _ _ kin => Tensor.kin_ofRows kin.X kin.nVar

theorem frontF (h : run.Kin R S box k run') :
    Option.Rel (Tensor.Kin S) (run.front?.map fun s => .ofRows s.nObj s.F)
      (run'.front?.map fun s => .ofRows s.nObj s.F) :=
  rel_map h.front? fun _ _ kin => Tensor.kin_ofRows kin.F kin.nObj

theorem view [Kinship S] (h : run.Kin R S box k run') : View.Kin R S run.view run'.view where
  generation := congrArg Int.ofNat h.generation
  popSize := congrArg Int.ofNat h.popSize
  bounds := congrArg some h.bounds_eq
  X := Tensor.kin_ofRows h.X h.dim_eq
  F := rel_map h.F fun _ _ rated => Tensor.kin_ofRows rated (rated.row 0).size_eq
  nObj := h.objectives_eq
  bestX := rel_map h.bestX.toOption fun _ _ point => Tensor.kin_ofRow point
  bestF := h.bestF.toOption
  frontX := h.frontX
  frontF := h.frontF

end Run.Kin

section Policy

/-- What progress is measured from in kin runs. -/
inductive Mark.Kin (S : Float → Float → Prop) : Mark Float → Mark Float → Prop
  | best {f f' : Best Float} (kin : Best.Kin S f f') : Kin S (.best f) (.best f')
  | front {F F' : Tensor Float} (kin : Tensor.Kin S F F') : Kin S (.front F) (.front F')

/-- Counts of generations without progress in kin runs. -/
structure Stall.Kin (S : Float → Float → Prop) (s s' : Stall Float) : Prop where
  mark : Option.Rel (Mark.Kin S) s.mark s'.mark
  stalled : s.stalled = s'.stalled

/-- What policies remember of kin runs. -/
structure Watch.Kin (S : Float → Float → Prop) (w w' : Watch Float) : Prop where
  stall : w.stall.Kin S w'.stall
  since : w.since = w'.since

variable {v v' : View Float}

theorem View.Kin.isMultiObjective_eq (h : View.Kin R S v v') :
    v.isMultiObjective = v'.isMultiObjective := by
  rw [View.isMultiObjective, View.isMultiObjective, h.nObj]

theorem Stall.markOf_kin (h : View.Kin R S v v') :
    Option.Rel (Mark.Kin S) (markOf v) (markOf v') := by
  rw [markOf, markOf, h.isMultiObjective_eq]
  split
  · exact rel_map h.frontF fun _ _ kin => .front kin
  · exact rel_map h.bestF fun _ _ kin => .best kin

variable [Kinship S]

theorem Stall.sameArray_eq {t t' u u' : Tensor Float} (ht : Tensor.Kin S t t')
    (hu : Tensor.Kin S u u') : sameArray t u = sameArray t' u' := by
  have entry (i : Nat) : (t.entries.getD i Scalar.zero == u.entries.getD i Scalar.zero) =
      (t'.entries.getD i Scalar.zero == u'.entries.getD i Scalar.zero) :=
    (ht.entries.akin.gene i).beq_eq (hu.entries.akin.gene i)
  simp only [sameArray, ht.shape, hu.shape, ht.entries.size_eq, hu.entries.size_eq, entry]

theorem Stall.improved_eq (tol : Float) {m m' c c' : Option (Mark Float)}
    (hm : Option.Rel (Mark.Kin S) m m') (hc : Option.Rel (Mark.Kin S) c c') :
    improved tol m c = improved tol m' c' := by
  have below {a a' b b' : Float} (ha : S a a') (hb : S b b') :
      decide (a < b - tol) = decide (a' < b' - tol) := by
    have lowered := Kinship.sub hb (Kinship.refl (R := S) tol)
    simp only [(Kinship.akin ha).lt_iff (Kinship.akin lowered)]
  cases hm with
  | none => cases hc <;> rfl
  | some earlier =>
    cases earlier with
    | front t =>
      cases hc with
      | none => rfl
      | some current =>
        cases current with
        | front u => simp only [improved, sameArray_eq t u]
        | best f =>
          cases f with
          | number f =>
            simp only [improved, t.entries.size_eq]
            split
            · exact congrArg Except.ok (below f (t.entries.gene 0))
            · rfl
          | vector => rfl
          | other => rfl
    | best f =>
      cases hc with
      | none => cases f <;> rfl
      | some current =>
        cases current with
        | front => cases f <;> rfl
        | best g =>
          cases f with
          | number f =>
            cases g with
            | number g => simp only [improved, below g f]
            | vector => rfl
            | other => rfl
          | vector => cases g <;> rfl
          | other => cases g <;> rfl

theorem Stall.observe_kin (tol : Float) {s s' : Stall Float} (hs : s.Kin S s')
    (hv : View.Kin R S v v') : Matched (Stall.Kin S) (s.observe tol v) (s'.observe tol v') := by
  have mark := markOf_kin hv
  rw [observe, observe, improved_eq tol hs.mark mark]
  refine (Matched.refl (fun _ => rfl) (improved tol s'.mark (markOf v'))).bind ?_
  rintro improved _ rfl
  cases improved with
  | true => exact .ok ⟨mark, rfl⟩
  | false => exact .ok ⟨hs.mark, congrArg (· + 1) hs.stalled⟩

end Policy

section Callers

variable {β : Type}

theorem Act.call_kin (c : Call σ β) : Alongside SameUser Eq (call c) (call c) := by
  have attempted : Alongside SameUser Eq (attempt c) (attempt c) := by
    rintro ⟨user, log⟩ ⟨_, log'⟩ ⟨⟩
    exact ⟨.ok rfl, rfl⟩
  apply alongside_bind attempted
  rintro r _ rfl
  cases r with
  | ok b => exact alongside_pure rfl
  | error failure => exact alongside_throw _

theorem Act.log_kin (event event' : Log.Event) :
    Alongside (SameUser (σ := σ)) (fun _ _ => True) (log event) (log event') :=
  fun _ _ same => ⟨.ok trivial, same⟩

/-- The policy asks no clock, and its predicate, if it has one, does not tell kin views apart. -/
structure Policy.Blind (R S : Float → Float → Prop) (policy : Policy σ Float) : Prop where
  untimed : ∀ seconds, policy.rule ≠ .timeLimit seconds
  predicate : ∀ holds, policy.rule = .predicate holds →
    ∀ v v', View.Kin R S v v' → holds v = holds v'

/-- The observer does the same at kin views, and does not look at numbers of evaluations. -/
structure Observer.Blind (R S : Float → Float → Prop) (o : Observer σ) : Prop where
  onStart : ∀ info, Alongside SameUser (fun _ _ => True) (o.onStart info) (o.onStart info)
  onGeneration : ∀ v v', View.Kin R S v v' →
    Alongside SameUser (fun _ _ => True) (o.onGeneration v) (o.onGeneration v')
  onEnd : ∀ generations nEval nEval', Alongside SameUser (fun _ _ => True)
    (o.onEnd generations nEval) (o.onEnd generations nEval')

namespace Policy.Blind

variable {policy : Policy σ Float} {v v' : View Float} [Kinship S]

omit [Kinship S] in
theorem start (h : policy.Blind R S) (clock : Call σ Float) (hv : View.Kin R S v v') :
    Alongside SameUser (Watch.Kin S) (policy.start clock v) (policy.start clock v') := by
  unfold Policy.start
  rw [hv.nObj]
  cases rule : policy.rule with
  | stall generations tol => exact alongside_pure ⟨⟨Stall.markOf_kin hv, rfl⟩, rfl⟩
  | timeLimit seconds => exact absurd rule (h.untimed seconds)
  | never | threshold | predicate =>
    cases policy.checkObjectives v'.nObj with
    | ok => exact alongside_pure ⟨⟨.none, rfl⟩, rfl⟩
    | error e => exact alongside_throw e

theorem reached_eq (target : Float) {b b' : Option (Best Float)} (h : Option.Rel (Best.Kin S) b b') :
    reached target b = reached target b' := by
  cases h with
  | none => rfl
  | some kin =>
    cases kin with
    | number f => simp only [reached, (Kinship.akin f).le_iff (.refl target)]
    | vector => rfl
    | other => rfl

/-- Verdicts with what is remembered: the verdicts are the same. -/
abbrev Ruled (S : Float → Float → Prop) (r r' : Bool × Watch Float) : Prop :=
  r.1 = r'.1 ∧ r.2.Kin S r'.2

theorem ruleHolds (h : policy.Blind R S) (clock : Call σ Float) {w w' : Watch Float}
    (hw : w.Kin S w') (hv : View.Kin R S v v') :
    Alongside SameUser (Ruled S) (policy.ruleHolds clock w v) (policy.ruleHolds clock w' v') := by
  unfold Policy.ruleHolds
  cases rule : policy.rule with
  | never => exact alongside_pure ⟨rfl, hw⟩
  | threshold target =>
    dsimp only
    rw [reached_eq target hv.bestF]
    apply alongside_bind (alongside_ofExcept (.refl (fun _ => rfl) _))
    rintro holds _ rfl
    exact alongside_pure ⟨rfl, hw⟩
  | predicate holds =>
    dsimp only
    rw [h.predicate holds rule v v' hv]
    apply alongside_bind (Act.call_kin _)
    rintro verdict _ rfl
    exact alongside_pure ⟨rfl, hw⟩
  | stall generations tol =>
    apply alongside_bind (alongside_ofExcept (Stall.observe_kin tol hw.stall hv))
    intro stall stall' kin
    exact alongside_pure ⟨by rw [kin.stalled], kin, hw.since⟩
  | timeLimit seconds => exact absurd rule (h.untimed seconds)

theorem stops (h : policy.Blind R S) (clock : Call σ Float) {w w' : Watch Float}
    (hw : w.Kin S w') (hv : View.Kin R S v v') :
    Alongside SameUser (Ruled S) (policy.stops clock w v) (policy.stops clock w' v') := by
  apply alongside_bind (h.ruleHolds clock hw hv)
  rintro ⟨holds, watch⟩ ⟨_, watch'⟩ ⟨rfl, kin⟩
  exact alongside_pure ⟨by rw [hv.generation], kin⟩

end Policy.Blind

namespace Progress

theorem log_kin (pace : Pace) (line line' : String) :
    Alongside (SameUser (σ := σ)) (fun _ _ => True) (pace.log line) (pace.log line') := by
  unfold Pace.log
  cases pace.level with
  | int level => exact Act.log_kin _ _
  | bool b => exact Act.log_kin _ _
  | absent | float | text | list | tuple | record | object => exact alongside_throw _

/-- Kin views have a standing to show, or have none, alike. -/
theorem standing_kin {v v' : View Float} (h : View.Kin R S v v') :
    Matched (fun _ _ => True) (standing v) (standing v') := by
  have front := h.frontF
  have best := h.bestF
  rw [standing, standing, h.isMultiObjective_eq]
  generalize v.frontF = F at front
  generalize v'.frontF = F' at front
  generalize v.bestF = f at best
  generalize v'.bestF = f' at best
  split
  · cases front with
    | none => exact .error _
    | some kin =>
      simp only [Option.map_some, kin.shape]
      split
      · exact .ok trivial
      · exact .error _
  · cases best with
    | none => exact .error _
    | some kin =>
      cases kin with
      | number => exact .ok trivial
      | vector => exact .error _
      | other => exact .error _

/-- The observer that logs progress shows the number of evaluations to nobody but the log. -/
theorem blind (pace : Pace) : (Observer.progress pace : Observer σ).Blind R S where
  onStart info := log_kin pace _ _
  onGeneration v v' h := by
    apply alongside_guard Iff.rfl
    apply alongside_ite (by rw [h.generation])
    · intro _
      refine alongside_bind (Q := fun _ _ => True)
        (alongside_ofExcept ((standing_kin h).map fun _ _ _ => trivial)) ?_
      exact fun line line' _ => log_kin pace line line'
    · exact fun _ => alongside_pure trivial
  onEnd generations nEval nEval' := log_kin pace _ _

end Progress

end Callers

/-- Summaries of kin runs: the second one counts `k` evaluations more. -/
structure Snapshot.Kin (S : Float → Float → Prop) (k : Nat) (s s' : Snapshot (Best Float)) :
    Prop where
  generation : s.generation = s'.generation
  nEval : s'.nEval = s.nEval + k
  best : Best.Kin S s.best s'.best
  mean : Best.Kin S s.mean s'.mean
  frontSize : s.frontSize = s'.frontSize
  record : s.record = s'.record

/-- Results of kin runs: the second one counts `k` evaluations more. -/
structure Result.Kin (R S : Float → Float → Prop) (k : Nat) (r r' : Result (Best Float)) :
    Prop where
  bestX : Tensor.Kin R r.bestX r'.bestX
  best : Best.Kin S r.best r'.best
  frontX : Option.Rel (Tensor.Kin R) r.frontX r'.frontX
  frontF : Option.Rel (Tensor.Kin S) r.frontF r'.frontF
  history : List.Forall₂ (Snapshot.Kin S k) r.history r'.history
  nEval : r'.nEval = r.nEval + k
  nObj : r.nObj = r'.nObj
  seed : r.seed = r'.seed
  generations : r.generations = r'.generations
  algorithm : r.algorithm = r'.algorithm
  product : r.product = r'.product
  frontProducts : r.frontProducts = r'.frontProducts

namespace Plan

variable {plan : Plan σ} {run run' : Run Float Value} [Kinship S]

theorem meanFitness_kin (h : run.Kin R S box k run') {F F' : Rows Float} (rated : Rows.Kin S F F') :
    Best.Kin S (meanFitness run F) (meanFitness run' F') := by
  have front := h.front?
  rw [meanFitness, meanFitness]
  generalize run.front? = s at front
  generalize run'.front? = s' at front
  cases front with
  | none =>
    rw [Scalar.mean_eq (rated.column 0)]
    exact .number (Kinship.refl _)
  | some =>
    rw [(rated.row 0).size_eq]
    exact .vector (Rows.meanRow_kin rated _)

theorem snapshot_kin (blind : ∀ f, plan.record = some f → ∀ v v', View.Kin R S v v' → f v = f v')
    (h : run.Kin R S box k run') :
    Alongside SameUser (Snapshot.Kin S k) (plan.snapshot run run.view)
      (plan.snapshot run' run'.view) := by
  have summed {F F' : Rows Float} {best best' : Best Float} (rated : Rows.Kin S F F')
      (kin : Best.Kin S best best') (record : Value) :
      Snapshot.Kin S k
        { generation := run.generation, nEval := run.nEval, best, mean := meanFitness run F
          frontSize := (run.front?.map Front.size).getD 0, record }
        { generation := run'.generation, nEval := run'.nEval, best := best'
          mean := meanFitness run' F', frontSize := (run'.front?.map Front.size).getD 0
          record } := by
    have sizes : run.front?.map Front.size = run'.front?.map Front.size := by
      have front := h.front?
      generalize run.front? = s at front
      generalize run'.front? = s' at front
      cases front with
      | none => rfl
      | some kin => exact congrArg some kin.size
    exact {
      generation := congrArg Int.ofNat h.generation
      nEval := congrArg Int.ofNat h.nEval
      best := kin
      mean := meanFitness_kin h rated
      frontSize := by simp only [sizes]
      record := rfl }
  apply alongside_bind (alongside_ofExcept h.fitness)
  intro F F' rated
  apply alongside_bind (alongside_ofExcept h.bestF)
  intro best best' kin
  cases supplied : plan.record with
  | none => exact alongside_pure (summed rated kin .absent)
  | some f =>
    dsimp only
    rw [blind f supplied _ _ h.view]
    apply alongside_bind (Act.call_kin _)
    rintro record _ rfl
    exact alongside_pure (summed rated kin record)

theorem resultOf_kin (plan : Plan σ) (h : run.Kin R S box k run')
    {history history' : List (Snapshot (Best Float))}
    (told : List.Forall₂ (Snapshot.Kin S k) history history') :
    Matched (Result.Kin R S k) (plan.resultOf run history) (plan.resultOf run' history') := by
  have products : run.front?.map (fun s => s.products.toList) =
      run'.front?.map (fun s => s.products.toList) := by
    have front := h.front?
    generalize run.front? = s at front
    generalize run'.front? = s' at front
    cases front with
    | none => rfl
    | some kin => exact congrArg (fun ps => some ps.toList) kin.products
  apply h.bestF.bind
  intro best best' kin
  apply h.bestX.bind
  intro bestX bestX' point
  apply h.bestProduct.bind
  rintro product _ rfl
  exact .ok {
    bestX := Tensor.kin_ofRow point
    best := kin
    frontX := h.frontX
    frontF := h.frontF
    history := told
    nEval := congrArg Int.ofNat h.nEval
    nObj := by simp only [h.objectives_eq]
    seed := rfl
    generations := congrArg Int.ofNat h.generation
    algorithm := rfl
    product := rfl
    frontProducts := products }

end Plan

end BoxSearch
