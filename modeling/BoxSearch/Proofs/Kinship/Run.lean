import BoxSearch.Proofs.Kinship.Archive
import BoxSearch.Run.Notes
import BoxSearch.Run.Search

/-!
Runs of kin populations.

Two runs are kin if they hold kin points everywhere, and agree in all that is no number of a point;
but the second one may have paid for some evaluations more. Whatever changes them in the same way
keeps them kin, and what they show is kin.
-/

namespace BoxSearch

variable {R S : Float → Float → Prop} {P : Type} {box : Bounds Float} {k : Nat}

/-- Best fitness values that are kin. -/
inductive Best.Kin (S : Float → Float → Prop) : Best Float → Best Float → Prop
  | number {f f' : Float} (kin : S f f') : Kin S (.number f) (.number f')
  | vector {f f' : Row Float} (kin : Related S f f') : Kin S (.vector f) (.vector f')
  | other : Kin S .other .other

/-- Memories of swarms at kin places. -/
structure Swarm.Memory.Kin (R S : Float → Float → Prop) (m m' : Swarm.Memory Float) : Prop where
  velocity : Option.Rel (Rows.Kin R) m.velocity m'.velocity
  bestX : Option.Rel (Rows.Kin R) m.bestX m'.bestX
  bestF : Option.Rel (Rows.Kin S) m.bestF m'.bestF

/-- How a part of a swarm's memory is kin to that part of another: places are kin, fitness is
akin. -/
def Swarm.Part.Kin (R S : Float → Float → Prop) : Swarm.Part → Rows Float → Rows Float → Prop
  | .velocity | .bestX => Rows.Kin R
  | .bestF => Rows.Kin S

namespace Swarm.Memory.Kin

variable {m m' : Swarm.Memory Float}

theorem get (h : m.Kin R S m') (part : Swarm.Part) :
    Option.Rel (part.Kin R S) (m.get part) (m'.get part) := by
  cases part with
  | velocity => exact h.velocity
  | bestX => exact h.bestX
  | bestF => exact h.bestF

theorem set (h : m.Kin R S m') (part : Swarm.Part) {rows rows' : Rows Float}
    (new : part.Kin R S rows rows') :
    (m.set part (some rows)).Kin R S (m'.set part (some rows')) := by
  cases part with
  | velocity => exact { h with velocity := .some new }
  | bestX => exact { h with bestX := .some new }
  | bestF => exact { h with bestF := .some new }

end Swarm.Memory.Kin

/-- Runs in one box at kin points. The second one has evaluated `k` rows more. -/
structure Run.Kin (R S : Float → Float → Prop) (box : Bounds Float) (k : Nat)
    (run run' : Run Float P) : Prop where
  bounds : run.bounds = box
  bounds' : run'.bounds = box
  popSize : run.popSize = run'.popSize
  frontLimit : run.frontLimit = run'.frontLimit
  streams : run.streams = run'.streams
  generation : run.generation = run'.generation
  nEval : run'.nEval = run.nEval + k
  X : Rows.Kin R run.X run'.X
  F : Option.Rel (Rows.Kin S) run.F run'.F
  stale : run.stale = run'.stale
  nObj : run.nObj = run'.nObj
  tracker : Option.Rel (Tracker.Kin R S) run.tracker run'.tracker
  pending : Related (Batch.Kin R S) run.pending run'.pending
  nonFinite : run.nonFinite = run'.nonFinite
  swarm : run.swarm.Kin R S run'.swarm
  remarks : run.remarks = run'.remarks

section Places

variable {β γ : Type} {S : β → γ → Prop}

/-- Pairs with the same first part and related second parts. -/
def SamePlace (S : β → γ → Prop) {ι : Type} (p : ι × β) (q : ι × γ) : Prop :=
  p.1 = q.1 ∧ S p.2 q.2

theorem samePlace_zip {ι : Type} (places : List ι) {l : List β} {l' : List γ}
    (h : List.Forall₂ S l l') :
    List.Forall₂ (SamePlace S) (places.zip l) (places.zip l') := by
  induction h generalizing places with
  | nil => simp
  | cons first _ ih =>
    cases places with
    | nil => exact .nil
    | cons i places => exact .cons ⟨rfl, first⟩ (ih places)

theorem Related.writeAt {xs values : Array β} {ys values' : Array γ} (h : Related S xs ys)
    (places : List Nat) (new : Related S values values') :
    Related S (writeAt xs places values) (writeAt ys places values') := by
  refine List.rel_foldl (P := Related S) (R := SamePlace S) ?_ h (samePlace_zip places new)
  rintro xs ys written ⟨i, x⟩ ⟨_, y⟩ ⟨rfl, related⟩
  exact written.setIfInBounds i related

theorem selected_rel (mask : Array Bool) {l : List β} {l' : List γ} (h : List.Forall₂ S l l') :
    List.Forall₂ S (Run.selected mask l) (Run.selected mask l') := by
  have pairs := samePlace_zip mask.toList h
  have kept := List.rel_filter (R := SamePlace S) (p := fun p : Bool × β => p.1)
    (q := fun p : Bool × γ => p.1) (fun _ _ same => by simp [same.1]) pairs
  exact List.rel_map (R := SamePlace S) (fun _ _ same => same.2) kept

end Places

namespace Run.Kin

variable {run run' : Run Float P}

theorem bounds_eq (h : run.Kin R S box k run') : run.bounds = run'.bounds :=
  h.bounds.trans h.bounds'.symm

theorem dim_eq (h : run.Kin R S box k run') : run.dim = run'.dim := by
  rw [Run.dim, Run.dim, h.bounds_eq]

theorem stalePlaces_eq (h : run.Kin R S box k run') : run.stalePlaces = run'.stalePlaces := by
  rw [Run.stalePlaces, Run.stalePlaces, h.popSize, h.stale]

theorem fitness (h : run.Kin R S box k run') :
    Matched (Rows.Kin S) run.fitness run'.fitness := by
  have known := h.F
  rw [Run.fitness, Run.fitness]
  generalize run.F = F at known
  generalize run'.F = F' at known
  cases known with
  | some related => exact .ok related
  | none => exact .error _

theorem tracked (h : run.Kin R S box k run') : run.tracker.isSome = run'.tracker.isSome :=
  isSome_eq_of_rel h.tracker

theorem objectives_eq (h : run.Kin R S box k run') : run.objectives = run'.objectives := by
  rw [Run.objectives, Run.objectives, h.tracked, h.nObj]

theorem front? (h : run.Kin R S box k run') : Option.Rel (Front.Kin R S) run.front? run'.front? := by
  have known := h.tracker
  rw [Run.front?, Run.front?]
  generalize run.tracker = t at known
  generalize run'.tracker = t' at known
  cases known with
  | some related => exact related.front?
  | none => exact .none

/-- The best points of two runs, with their fitness and the same payload. -/
structure BestKin (R S : Float → Float → Prop) (b b' : Row Float × Float × Option P) : Prop where
  x : Related R b.1 b'.1
  f : S b.2.1 b'.2.1
  product : b.2.2 = b'.2.2

theorem incumbent? (h : run.Kin R S box k run') :
    Option.Rel (BestKin R S) run.incumbent? run'.incumbent? := by
  have known := h.tracker
  rw [Run.incumbent?, Run.incumbent?]
  generalize run.tracker = t at known
  generalize run'.tracker = t' at known
  cases known with
  | none => exact .none
  | some related =>
    cases related with
    | several => exact .none
    | @single s s' kin =>
      obtain ⟨point, fitness, product⟩ := kin
      dsimp only
      generalize s.point = x at point
      generalize s'.point = x' at point
      cases point with
      | none => exact .none
      | some position => exact .some ⟨position, fitness, product⟩

theorem bestX [Kinship S] (h : run.Kin R S box k run') :
    Matched (Related R) run.bestX run'.bestX := by
  have front := h.front?
  have incumbent := h.incumbent?
  rw [Run.bestX, Run.bestX]
  generalize run.front? = s at front
  generalize run'.front? = s' at front
  generalize run.incumbent? = b at incumbent
  generalize run'.incumbent? = b' at incumbent
  cases front with
  | some kin => exact kin.representative.map fun _ _ m => m.x
  | none =>
    cases incumbent with
    | some best => exact .ok best.x
    | none => exact .error _

theorem bestF [Kinship S] (h : run.Kin R S box k run') :
    Matched (Best.Kin S) run.bestF run'.bestF := by
  have front := h.front?
  have incumbent := h.incumbent?
  rw [Run.bestF, Run.bestF]
  generalize run.front? = s at front
  generalize run'.front? = s' at front
  generalize run.incumbent? = b at incumbent
  generalize run'.incumbent? = b' at incumbent
  cases front with
  | some kin => exact kin.representative.map fun _ _ m => .vector m.f
  | none =>
    cases incumbent with
    | some best => exact .ok (.number best.f)
    | none => exact .error _

theorem bestProduct [Kinship S] (h : run.Kin R S box k run') :
    Matched Eq run.bestProduct run'.bestProduct := by
  have front := h.front?
  have incumbent := h.incumbent?
  rw [Run.bestProduct, Run.bestProduct]
  generalize run.front? = s at front
  generalize run'.front? = s' at front
  generalize run.incumbent? = b at incumbent
  generalize run'.incumbent? = b' at incumbent
  cases front with
  | some kin => exact kin.representative.map fun _ _ m => m.product
  | none =>
    cases incumbent with
    | some best => exact .ok best.product
    | none => exact .error _

open Draw

theorem sampleLeader [Kinship S] (h : run.Kin R S box k run') :
    Alongside Eq (Related R) (run.sampleLeader : Draw (Row Float)) run'.sampleLeader := by
  have front := h.front?
  rw [Run.sampleLeader, Run.sampleLeader]
  generalize run.front? = s at front
  generalize run'.front? = s' at front
  cases front with
  | none => exact alongside_ofExcept h.bestX
  | some kin =>
    apply alongside_ite (by rw [kin.members.isEmpty_eq])
    · exact fun _ => alongside_ofExcept h.bestX
    · intro _
      exact alongside_bind kin.sample fun _ _ member => alongside_pure member.1

/-- Runs that are kin apart from their positions. -/
theorem put [Kinship R] (h : run.Kin R S box k run') (places : List Nat) {X X' : Rows Float}
    (rows : Rows.Kin R X X') : (run.put places X).Kin R S box k (run'.put places X') := by
  refine { h with X := ?_ }
  change Related (Related R) (writeAt run.X places (run.bounds.clipRows X))
    (writeAt run'.X places (run'.bounds.clipRows X'))
  rw [h.bounds_eq]
  exact h.X.writeAt places (Bounds.clipRows_kin _ rows)

theorem mark (h : run.Kin R S box k run') (places : List Nat) (stale : Bool) :
    (run.mark places stale).Kin R S box k (run'.mark places stale) :=
  { h with stale := congrArg (writeAt · places _) h.stale }

theorem move [Kinship R] (h : run.Kin R S box k run') (places : List Nat) {X X' : Rows Float}
    (rows : Rows.Kin R X X') : (run.move places X).Kin R S box k (run'.move places X') :=
  (h.put places rows).mark places true

theorem moveAll [Kinship R] (h : run.Kin R S box k run') {X X' : Rows Float}
    (rows : Rows.Kin R X X') : (run.moveAll X).Kin R S box k (run'.moveAll X') := by
  rw [Run.moveAll, Run.moveAll, h.popSize]
  exact h.move _ rows

theorem rate (h : run.Kin R S box k run') (places : List Nat) {F F' : Rows Float}
    (rows : Rows.Kin S F F') : (run.rate places F).Kin R S box k (run'.rate places F') := by
  have written : Option.Rel (Rows.Kin S) (run.F.map (writeAt · places F))
      (run'.F.map (writeAt · places F')) := by
    have known := h.F
    generalize run.F = G at known
    generalize run'.F = G' at known
    cases known with
    | none => exact .none
    | some related => exact .some (related.writeAt places rows)
  have rated : Run.Kin R S box k { run with F := run.F.map (writeAt · places F) }
      { run' with F := run'.F.map (writeAt · places F') } :=
    { h with F := written }
  exact rated.mark places false

theorem overwrite [Kinship R] (h : run.Kin R S box k run') (places : List Nat) {X X' F F' : Rows Float}
    (rows : Rows.Kin R X X') (fitness : Rows.Kin S F F') :
    (run.overwrite places X F).Kin R S box k (run'.overwrite places X' F') :=
  (h.put places rows).rate places fitness

theorem settle [Kinship S] (h : run.Kin R S box k run') (places : List Nat) {F F' : Rows Float}
    (rows : Rows.Kin S F F') : (run.settle places F).Kin R S box k (run'.settle places F') := by
  have known := h.F
  have first : Rows.Kin S
      (run.F.getD (Array.replicate run.popSize
        (Row.tabulate (F.row 0).size fun _ => Scalar.infinity)))
      (run'.F.getD (Array.replicate run'.popSize
        (Row.tabulate (F'.row 0).size fun _ => Scalar.infinity))) := by
    rw [(rows.row 0).size_eq, h.popSize]
    generalize run.F = G at known
    generalize run'.F = G' at known
    cases known with
    | none => exact .replicate _ (.refl Kinship.refl _)
    | some related => exact related
  have settled : Run.Kin R S box k { run with F := some (writeAt _ places F) }
      { run' with F := some (writeAt _ places F') } :=
    { h with F := .some (first.writeAt places rows) }
  exact settled.mark places false

theorem fitnessAt {F F' : Rows Float} (h : Rows.Kin S F F') (places : List Nat) :
    Rows.Kin S (Run.fitnessAt F places) (Run.fitnessAt F' places) := by
  rw [Rows.Kin, Related, Run.fitnessAt, Run.fitnessAt, List.forall₂_map_left_iff,
    List.forall₂_map_right_iff, List.forall₂_same]
  exact fun i _ => h.row i

theorem accept [Kinship R] [Kinship S] (h : run.Kin R S box k run') {F F' : Rows Float}
    (stored : Rows.Kin S F F') (places : List Nat) {X X' G G' : Rows Float}
    (rows : Rows.Kin R X X') (rated : Rows.Kin S G G') :
    (run.accept F places X G).2.Kin R S box k (run'.accept F' places X' G').2 := by
  rw [Run.accept, Run.accept, Dominance.notWorseRows_eq rated (fitnessAt stored places)]
  exact h.overwrite _ (selected_rel _ rows) (selected_rel _ rated)

theorem measureFront [Kinship S] (h : run.Kin R S box k run') :
    run.measureFront.Kin R S box k run'.measureFront := by
  have known := h.tracker
  rw [Run.measureFront, Run.measureFront]
  generalize run.tracker = t at known
  generalize run'.tracker = t' at known
  cases known with
  | none => exact h
  | some related =>
    cases related with
    | single => exact h
    | several kin => exact { h with tracker := .some (.several kin.measured) }

theorem remember (h : run.Kin R S box k run') (part : Swarm.Part) {rows rows' : Rows Float}
    (new : part.Kin R S rows rows') :
    (run.remember part rows).Kin R S box k (run'.remember part rows') :=
  { h with
    swarm := h.swarm.set part new
    remarks := by simp only [Run.remember, Run.forget, h.remarks] }

theorem remembered (h : run.Kin R S box k run') (part : Swarm.Part) :
    Matched (part.Kin R S) (run.remembered part) (run'.remembered part) := by
  have known := h.swarm.get part
  rw [Run.remembered, Run.remembered, h.remarks]
  generalize run.swarm.get part = rows at known
  generalize run'.swarm.get part = rows' at known
  cases known with
  | some related => exact .ok related
  | none =>
    dsimp only
    split
    · exact .error _
    · exact .error _

theorem remembers_eq (h : run.Kin R S box k run') (part : Swarm.Part) :
    run.remembers part = run'.remembers part := by
  rw [Run.remembers, Run.remembers, h.remarks, isSome_eq_of_rel (h.swarm.get part)]

theorem completeGeneration (h : run.Kin R S box k run') :
    run.completeGeneration.Kin R S box k run'.completeGeneration :=
  { h with generation := congrArg (· + 1) h.generation }

end Run.Kin

end BoxSearch
