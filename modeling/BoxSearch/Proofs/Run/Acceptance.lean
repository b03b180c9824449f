import BoxSearch.Proofs.Dominance.Arrays
import BoxSearch.Proofs.Run.Replacement

/-!
Candidates that compete with rows of a population.

A candidate takes the place of the row that it names unless that row dominates it. As long as no two
candidates name the same row, each contest is a matter of one row. What becomes of every row is said
by `Decided`, which determines the state of the run and does not mention an order. Hence it makes no
difference whether the candidates are offered all at once or one after another.
-/

namespace BoxSearch

/-- A position with its fitness that is offered to the row that an index stands for. -/
structure Candidate (α : Type) where
  index : Int
  x : Row α
  f : Row α

namespace Run

variable {α P : Type} [Scalar α]

/-- All that a run knows of one row: its position, its fitness, and whether that is out of date. -/
def standing (run : Run α P) (i : Nat) : Option (Row α) × Option (Row α) × Option Bool :=
  (run.X[i]?, run.F.bind (·[i]?), run.stale[i]?)

/-- The fitness of one row, up to date or not. -/
def fitnessOf (run : Run α P) (i : Nat) : Row α :=
  (run.standing i).2.1.getD #[]

theorem fitnessOf_eq_row {run : Run α P} {stored : Rows α} (evaluated : run.F = some stored)
    (i : Nat) : run.fitnessOf i = stored.row i := by
  rw [fitnessOf, standing, evaluated, Rows.row, Array.getD_eq_getD_getElem?]
  rfl

end Run

namespace Candidate

open Run

variable {α P : Type} [Scalar α]

/-- The row whose place the candidate asks for. -/
def place (run : Run α P) (c : Candidate α) : Nat :=
  named run.popSize c.index

/-- The candidate is not worse than the row whose place it asks for. -/
def fits (run : Run α P) (c : Candidate α) : Bool :=
  !Dominance.dominates (run.fitnessOf (c.place run)) c.f

/-- The candidate names a row, and its vectors have the lengths that the run has. -/
structure Suits (w : Nat) (run : Run α P) (c : Candidate α) : Prop where
  names : Names run.popSize c.index
  position : c.x.size = run.dim
  fitness : c.f.size = w

end Candidate

namespace Run

variable {α P : Type} [Scalar α] {run mid run' : Run α P} {c : Candidate α}
  {cs : List (Candidate α)}

/-- What becomes of a run when candidates were offered. The rows of those that fit have the position
of the candidate, moved into the box, and its fitness, and are not stale. Nothing is different in
any other row, or apart from the population. -/
structure Decided (cs : List (Candidate α)) (run run' : Run α P) : Prop where
  taken : ∀ c ∈ cs, c.fits run = true →
    run'.standing (c.place run) = (some (run.bounds.clip c.x), some c.f, some false)
  left : ∀ i, (∀ c ∈ cs, c.place run = i → c.fits run = false) → run'.standing i = run.standing i
  evaluated : run'.F.isSome = run.F.isSome
  frame : run' = { run with X := run'.X, F := run'.F, stale := run'.stale }

theorem eq_of_standing {run a b : Run α P} (same : ∀ i, a.standing i = b.standing i)
    (evaluated : a.F.isSome = b.F.isSome)
    (frameA : a = { run with X := a.X, F := a.F, stale := a.stale })
    (frameB : b = { run with X := b.X, F := b.F, stale := b.stale }) : a = b := by
  have X : a.X = b.X := Array.ext_getElem? fun i => congrArg (·.1) (same i)
  have stale : a.stale = b.stale := Array.ext_getElem? fun i => congrArg (·.2.2) (same i)
  have F : a.F = b.F := by
    have rows (i : Nat) : a.F.bind (·[i]?) = b.F.bind (·[i]?) := congrArg (·.2.1) (same i)
    rcases hA : a.F with _ | A <;> rcases hB : b.F with _ | B <;>
      simp only [hA, hB, Option.bind_some] at rows evaluated
    · rfl
    · cases evaluated
    · cases evaluated
    · exact congrArg some (Array.ext_getElem? rows)
  rw [frameA, frameB, X, F, stale]

/-- What becomes of a run is determined. -/
theorem Decided.unique {a b : Run α P} (ha : Decided cs run a) (hb : Decided cs run b) : a = b := by
  refine eq_of_standing (fun i => ?_) (ha.evaluated.trans hb.evaluated.symm) ha.frame hb.frame
  by_cases won : ∃ c ∈ cs, c.place run = i ∧ c.fits run = true
  · obtain ⟨c, hc, rfl, fits⟩ := won
    rw [ha.taken c hc fits, hb.taken c hc fits]
  · have lost : ∀ c ∈ cs, c.place run = i → c.fits run = false := fun c hc here =>
      Bool.eq_false_iff.mpr fun fits => won ⟨c, hc, here, fits⟩
    rw [ha.left i lost, hb.left i lost]

theorem Decided.perm {order : List (Candidate α)} (h : Decided cs run run')
    (perm : order.Perm cs) : Decided order run run' :=
  ⟨fun c hc => h.taken c (perm.mem_iff.mp hc),
    fun i lost => h.left i fun c hc => lost c (perm.mem_iff.mpr hc), h.evaluated, h.frame⟩

theorem decided_nil (run : Run α P) : Decided [] run run :=
  ⟨nofun, fun _ _ => rfl, rfl, rfl⟩

theorem Decided.popSize (h : Decided cs run run') : run'.popSize = run.popSize := by
  rw [h.frame]

theorem Decided.bounds (h : Decided cs run run') : run'.bounds = run.bounds := by
  rw [h.frame]

theorem Decided.place (h : Decided cs run run') (c : Candidate α) :
    c.place run' = c.place run := by
  rw [Candidate.place, Candidate.place, h.popSize]

theorem Decided.measured (h : Decided cs run run') {w : Nat} (measured : run.Measured w) :
    run'.Measured w := by
  rw [h.frame]
  exact measured

theorem Decided.suits (h : Decided cs run run') {w : Nat} (suits : c.Suits w run) :
    c.Suits w run' := by
  refine ⟨?_, ?_, suits.fitness⟩
  · rw [h.popSize]
    exact suits.names
  · rw [dim, h.bounds]
    exact suits.position

/-- A candidate does not notice what becomes of rows that it does not name. -/
theorem Decided.fits_elsewhere (h : Decided [c] run run') {d : Candidate α}
    (elsewhere : c.place run ≠ d.place run) : d.fits run' = d.fits run := by
  have same : run'.standing (d.place run) = run.standing (d.place run) := by
    refine h.left _ fun e he here => absurd here ?_
    rwa [List.mem_singleton.mp he]
  rw [Candidate.fits, Candidate.fits, h.place, fitnessOf, fitnessOf, same]

/-- A candidate that is offered first, and others for other rows after it. -/
theorem Decided.cons (first : Decided [c] run mid) (rest : Decided cs mid run')
    (elsewhere : ∀ d ∈ cs, c.place run ≠ d.place run) : Decided (c :: cs) run run' := by
  have fits (d : Candidate α) (hd : d ∈ cs) := first.fits_elsewhere (elsewhere d hd)
  refine ⟨?_, ?_, rest.evaluated.trans first.evaluated, ?_⟩
  · intro d hd won
    rcases List.mem_cons.mp hd with rfl | hd
    · rw [rest.left, first.taken d List.mem_cons_self won]
      intro e he here
      rw [first.place] at here
      exact absurd here.symm (elsewhere e he)
    · have same := rest.taken d hd ((fits d hd).trans won)
      rwa [first.place, first.bounds] at same
  · intro i lost
    rw [rest.left, first.left]
    · intro d hd
      rw [List.mem_singleton.mp hd]
      exact lost c List.mem_cons_self
    · intro d hd here
      rw [first.place] at here
      exact (fits d hd).trans (lost d (List.mem_cons_of_mem _ hd) here)
  · rw [rest.frame, first.frame]

/-- The run after candidates took the places that they ask for. -/
def receive (run : Run α P) (cs : List (Candidate α)) : Run α P :=
  run.overwrite (cs.map (·.place run)) (cs.map (·.x)).toArray (cs.map (·.f)).toArray

theorem receive_nil (run : Run α P) : run.receive [] = run := by
  have same (F : Option (Rows α)) : F.map (writeAt · [] #[]) = F := by
    cases F <;> rfl
  change { run with F := run.F.map (writeAt · [] #[]) } = run
  rw [same]

theorem place_lt (formed : run.Formed) (c : Candidate α) : c.place run < run.popSize := by
  have inhabited : (0 : Int) < run.popSize := by exact_mod_cast formed.inhabited
  have low := Int.emod_nonneg c.index inhabited.ne'
  have high := Int.emod_lt_of_pos c.index inhabited
  rw [Candidate.place, named]
  omega

theorem standing_receive_of_notMem {i : Nat} (absent : i ∉ cs.map (·.place run)) :
    (run.receive cs).standing i = run.standing i := by
  have X : (run.receive cs).X[i]? = run.X[i]? := getElem?_writeAt_absent absent _ _
  have stale : (run.receive cs).stale[i]? = run.stale[i]? := getElem?_writeAt_absent absent _ _
  have F : (run.receive cs).F.bind (·[i]?) = run.F.bind (·[i]?) := by
    change (run.F.map (writeAt · _ _)).bind (·[i]?) = _
    cases run.F with
    | none => rfl
    | some F => exact getElem?_writeAt_absent absent F _
  rw [standing, standing, X, stale, F]

/-- Among candidates for different rows, each is the last one for its row. -/
theorem exists_last (distinct : (cs.map (·.place run)).Nodup) (hc : c ∈ cs) :
    ∃ k : Nat, cs[k]? = some c ∧ (cs.map (·.place run))[k]? = some (c.place run) ∧
      ∀ l, k < l → (cs.map (·.place run))[l]? ≠ some (c.place run) := by
  obtain ⟨k, here⟩ := List.mem_iff_getElem?.mp hc
  have place : (cs.map (·.place run))[k]? = some (c.place run) := by
    rw [List.getElem?_map, here]
    rfl
  refine ⟨k, here, place, fun l after again => ?_⟩
  have below := (List.getElem?_eq_some_iff.mp again).1
  exact List.nodup_iff_getElem?_ne_getElem?.mp distinct k l after below (place.trans again.symm)

theorem standing_receive_of_mem (formed : run.Formed) {stored : Rows α}
    (evaluated : run.F = some stored) {w : Nat} (suits : ∀ c ∈ cs, c.Suits w run)
    (distinct : (cs.map (·.place run)).Nodup) (hc : c ∈ cs) :
    (run.receive cs).standing (c.place run) =
      (some (run.bounds.clip c.x), some c.f, some false) := by
  have wide : Rows.Shaped (cs.map (·.place run)).length w (cs.map (·.f)).toArray := by
    refine ⟨by simp, fun f hf => ?_⟩
    obtain ⟨d, hd, rfl⟩ := List.mem_map.mp (List.mem_toArray.mp hf)
    exact (suits d hd).fitness
  have replaced := replaced_overwrite formed evaluated (X := (cs.map (·.x)).toArray) (by simp) wide
  obtain ⟨F, F', known, known', fitness⟩ := replaced.fitness
  obtain rfl : stored = F := Option.some_inj.mp (evaluated.symm.trans known)
  have inside := place_lt formed c
  obtain ⟨k, here, place, last⟩ := exists_last distinct hc
  have X : (run.receive cs).X[c.place run]? = some (run.bounds.clip c.x) := by
    rw [receive, replaced.positions.last k _ (by rwa [formed.positions.size]) place last]
    simp [Bounds.clipRows, here]
  have F : F'[c.place run]? = some c.f := by
    have size := (formed.fitness stored evaluated).choose_spec.2.size
    rw [fitness.last k _ (by rwa [size]) place last]
    simp [here]
  have stale : (run.receive cs).stale[c.place run]? = some false := by
    rw [receive, replaced.marks _ inside, if_pos (List.mem_of_getElem? place)]
  rw [standing, X, stale, receive, known', Option.bind_some, F]

/-- Candidates for different rows decide what becomes of a run by those of them that fit. -/
theorem decided_receive (formed : run.Formed) {stored : Rows α} (evaluated : run.F = some stored)
    {w : Nat} (suits : ∀ c ∈ cs, c.Suits w run) (distinct : (cs.map (·.place run)).Nodup) :
    Decided cs run (run.receive (cs.filter (·.fits run))) := by
  have some : ((cs.filter (·.fits run)).map (·.place run)).Nodup :=
    distinct.sublist (List.filter_sublist.map _)
  refine ⟨fun c hc won => ?_, fun i lost => ?_, ?_, rfl⟩
  · have suits : ∀ d ∈ cs.filter (·.fits run), d.Suits w run := fun d hd =>
      suits d (List.mem_of_mem_filter hd)
    exact standing_receive_of_mem formed evaluated suits some (List.mem_filter.mpr ⟨hc, won⟩)
  · refine standing_receive_of_notMem fun there => ?_
    obtain ⟨c, hc, here⟩ := List.mem_map.mp there
    obtain ⟨hc, won⟩ := List.mem_filter.mp hc
    rw [lost c hc here] at won
    cases won
  · change (run.F.map _).isSome = _
    exact Option.isSome_map

end Run

section Masks

variable {β γ : Type}

theorem selected_map (xs : List β) (fits : β → Bool) (f : β → γ) :
    Run.selected (xs.map fits).toArray (xs.map f) = (xs.filter fits).map f := by
  induction xs with
  | nil => rfl
  | cons x xs ih =>
    cases h : fits x <;> simpa [Run.selected, h] using ih

theorem select_ofRows {α : Type} {width : Nat} {xs : List β} (fits : β → Bool) {f : β → Row α}
    (even : ∀ x ∈ xs, (f x).size = width) :
    (Tensor.ofRows width (xs.map f).toArray).select (xs.map fits).toArray =
      .ok (.ofRows width ((xs.filter fits).map f).toArray) := by
  have rows : ∀ r ∈ (xs.map f).toArray.toList, r.size = width := by simpa using even
  have kept : (((xs.map fits).toArray.zip (xs.map f).toArray).filter (·.1)).map (·.2) =
      ((xs.filter fits).map f).toArray :=
    Array.toList_inj.mp (by simpa [Run.selected] using selected_map xs fits f)
  have size : ((xs.map f).toArray.size != (xs.map fits).toArray.size) = false := by simp
  have places : Tensor.places [width] = width := Nat.one_mul width
  simp only [Tensor.select, Tensor.ofRows, size, Bool.false_eq_true, if_false, places,
    Tensor.cut_flatten rows, kept]

end Masks

namespace Run

variable {α P : Type} [Scalar α] {run : Run α P} {cs : List (Candidate α)} {stored : Rows α}

theorem names_candidates {w : Nat} (suits : ∀ c ∈ cs, c.Suits w run) :
    ∀ i ∈ cs.map (·.index), Names run.popSize i := by
  intro i hi
  obtain ⟨c, hc, rfl⟩ := List.mem_map.mp hi
  exact (suits c hc).names

theorem named_candidates (run : Run α P) (cs : List (Candidate α)) :
    (cs.map (·.index)).map (named run.popSize) = cs.map (·.place run) := by
  rw [List.map_map]
  rfl

theorem notWorseRows_candidates (evaluated : run.F = some stored) :
    Dominance.notWorseRows (cs.map (·.f)).toArray (fitnessAt stored (cs.map (·.place run))) =
      (cs.map (·.fits run)).toArray := by
  rw [Dominance.notWorseRows_eq_map (by simp [fitnessAt])]
  apply Array.ext
  · simp
  · intro i hi hi'
    have inside : i < cs.length := by simpa using hi'
    simp [Candidate.fits, fitnessOf_eq_row evaluated, fitnessAt, Rows.row, inside]

/-- Candidates that were evaluated for a step of the run are treated in the same way. -/
theorem accept_candidates (evaluated : run.F = some stored) :
    run.accept stored (cs.map (·.place run)) (cs.map (·.x)).toArray (cs.map (·.f)).toArray =
      ((cs.map (·.fits run)).toArray, run.receive (cs.filter (·.fits run))) := by
  simp only [accept, notWorseRows_candidates evaluated, selected_map]
  rfl

theorem formed_receive (formed : run.Formed) (evaluated : run.F = some stored) {w : Nat}
    (measured : run.Measured w) (suits : ∀ c ∈ cs, c.Suits w run) : (run.receive cs).Formed := by
  have width := (formed.size_row evaluated measured).2
  refine (formed.put _ _).rate evaluated _ fun f hf => ?_
  obtain ⟨c, hc, rfl⟩ := List.mem_map.mp (List.mem_toArray.mp hf)
  rw [width]
  exact (suits c hc).fitness

end Run

namespace Search

open Run

variable {σ α P : Type} [Scalar α] {s : Run α P × Session σ} {cs : List (Candidate α)} {w : Nat}

/-- Offers candidates all at once. -/
def offer (dim w : Nat) (cs : List (Candidate α)) : Search σ α P (Array Bool) :=
  accept (cs.map (·.index)) (.ofRows dim (cs.map (·.x)).toArray) (.ofRows w (cs.map (·.f)).toArray)

/-- The comparison of candidates with the rows that they name says which of them fit. -/
theorem notWorse_candidates {run : Run α P} (formed : run.Formed) {stored : Rows α}
    (evaluated : run.F = some stored) (measured : run.Measured w)
    (suits : ∀ c ∈ cs, c.Suits w run) :
    Dominance.notWorseRowsTensor (.ofRows w (cs.map (·.f)).toArray)
      (.ofRows w (fitnessAt stored (cs.map (·.place run)))) =
        .ok (cs.map (·.fits run)).toArray := by
  have shaped := (formed.size_row evaluated measured).1
  have even : ∀ f ∈ (cs.map (·.f)).toArray.toList, f.size = w := by
    simpa using fun c hc => (suits c hc).fitness
  have even' : ∀ f ∈ (fitnessAt stored (cs.map (·.place run))).toList, f.size = w := by
    simpa [fitnessAt] using fun c _ => shaped.row (place_lt formed c)
  have same : (cs.map (·.f)).toArray.size =
      (fitnessAt stored (cs.map (·.place run))).size := by
    simp [fitnessAt]
  rw [Dominance.notWorseRowsTensor_ofRows even even' same, notWorseRows_candidates evaluated]

/-- Candidates replace the rows that they name. -/
theorem run_replace_candidates (formed : s.1.Formed) {stored : Rows α}
    (evaluated : s.1.F = some stored) (measured : s.1.Measured w) (some : cs ≠ [])
    (suits : ∀ c ∈ cs, c.Suits w s.1) :
    (replace (cs.map (·.index)) (.ofRows s.1.dim (cs.map (·.x)).toArray)
      (.ofRows w (cs.map (·.f)).toArray)).run s = (.ok (), s.1.receive cs, s.2) := by
  have width := (formed.size_row evaluated measured).2
  have evenX : ∀ x ∈ (cs.map (·.x)).toArray.toList, x.size = s.1.dim := by
    simpa using fun c hc => (suits c hc).position
  have evenF : ∀ f ∈ (cs.map (·.f)).toArray.toList, f.size = w := by
    simpa using fun c hc => (suits c hc).fitness
  have sizeX := Tensor.size_flatten evenX
  have sizeF := Tensor.size_flatten evenF
  have cutX := Tensor.cut_flatten evenX
  have cutF := Tensor.cut_flatten evenF
  simp only [List.size_toArray, List.length_map] at sizeX sizeF cutX cutF
  have suited : Suited s.1 (cs.map (·.index)) (.ofRows s.1.dim (cs.map (·.x)).toArray)
      (.ofRows w (cs.map (·.f)).toArray) := by
    refine ⟨names_candidates suits, ?_, ?_⟩
    · rw [List.length_map]
      exact sizeX
    · rw [List.length_map, Tensor.ofRows, sizeF]
      exact Nat.mul_mod_right _ _
  rw [replace_of_suited evaluated width (by simpa using some) suited]
  simp only [List.length_map, Tensor.ofRows, sizeF, cutX, cutF, named_candidates, if_true]
  rfl

/-- Candidates that name rows and have the right lengths are compared with those rows, and the ones
that fit take their places. -/
theorem run_offer (formed : s.1.Formed) {stored : Rows α} (evaluated : s.1.F = some stored)
    (measured : s.1.Measured w) (suits : ∀ c ∈ cs, c.Suits w s.1) :
    (offer s.1.dim w cs).run s =
      (.ok (cs.map (·.fits s.1)).toArray, s.1.receive (cs.filter (·.fits s.1)), s.2) := by
  have width := (formed.size_row evaluated measured).2
  have fitness : s.1.fitness = .ok stored := by rw [fitness, evaluated]
  have places : s.1.places (cs.map (·.index)) = .ok (cs.map (·.place s.1)) := by
    rw [places_eq_ok (names_candidates suits), named_candidates]
  rw [offer, accept, run_bind, run_current]
  simp only [run_bind, run_ofExcept, fitness, places, width,
    notWorse_candidates formed evaluated measured suits]
  have hits : (cs.map (·.fits s.1)).toArray.contains true = true ↔
      cs.filter (·.fits s.1) ≠ [] := by
    simp
  by_cases none : cs.filter (·.fits s.1) = []
  · rw [if_neg (fun hit => hits.mp hit none), none, receive_nil]
    rfl
  · have size : ((cs.map (·.fits s.1)).toArray.size != (cs.map (·.index)).length) = false := by
      simp
    have chosen := run_replace_candidates formed evaluated measured none fun c hc =>
      suits c (List.mem_of_mem_filter hc)
    rw [if_pos (hits.mpr none)]
    simp only [size, Bool.false_eq_true, if_false, run_bind, run_ofExcept, selected_map,
      select_ofRows (·.fits s.1) fun c hc => (suits c hc).position,
      select_ofRows (·.fits s.1) fun c hc => (suits c hc).fitness, chosen]
    rfl

/-- Candidates for different rows that are offered one after another. -/
theorem run_offer_each (formed : s.1.Formed) {stored : Rows α} (evaluated : s.1.F = some stored)
    (measured : s.1.Measured w) (suits : ∀ c ∈ cs, c.Suits w s.1)
    (distinct : (cs.map (·.place s.1)).Nodup) :
    ∃ run', (cs.mapM fun c => offer s.1.dim w [c]).run s =
        (.ok (cs.map fun c => #[c.fits s.1]), run', s.2) ∧
      Decided cs s.1 run' := by
  induction cs generalizing s stored with
  | nil => exact ⟨s.1, rfl, decided_nil s.1⟩
  | cons c cs ih =>
    obtain ⟨suitsFirst, suitsRest⟩ := List.forall_mem_cons.mp suits
    obtain ⟨elsewhere, distinctRest⟩ := List.nodup_cons.mp distinct
    have alone : ∀ d ∈ [c], d.Suits w s.1 := List.forall_mem_singleton.mpr suitsFirst
    have offered := run_offer formed evaluated measured alone
    have first := decided_receive formed evaluated alone (List.nodup_singleton _)
    have formed' : (s.1.receive ([c].filter (·.fits s.1))).Formed :=
      formed_receive formed evaluated measured fun d hd => alone d (List.mem_of_mem_filter hd)
    generalize s.1.receive ([c].filter (·.fits s.1)) = mid at offered first formed'
    obtain ⟨stored', evaluated'⟩ : ∃ stored', mid.F = some stored' := by
      rw [← Option.isSome_iff_exists, first.evaluated, evaluated]
      rfl
    have distinct' : (cs.map (·.place mid)).Nodup := by
      simpa only [first.place] using distinctRest
    -- the other candidates meet the rows that they name as these were before
    have others : ∀ d ∈ cs, c.place s.1 ≠ d.place s.1 := fun d hd same =>
      elsewhere (List.mem_map.mpr ⟨d, hd, same.symm⟩)
    obtain ⟨run', rest, decided⟩ := ih (s := (mid, s.2)) formed' evaluated'
      (first.measured measured) (fun d hd => first.suits (suitsRest d hd)) distinct'
    have same : mid.dim = s.1.dim := congrArg Bounds.dim first.bounds
    have verdicts : (cs.map fun d => #[d.fits mid]) = cs.map fun d => #[d.fits s.1] :=
      List.map_congr_left fun d hd => by rw [first.fits_elsewhere (others d hd)]
    rw [same, verdicts] at rest
    refine ⟨run', ?_, first.cons decided others⟩
    rw [List.mapM_cons, run_bind, offered]
    simp only [run_bind, rest]
    rfl

end Search

namespace Run

open Search

section Local

variable {σ α P : Type} [Scalar α] [OrderedScalar α] {s : Run α P × Session σ} {stored : Rows α}
  {cs : List (Candidate α)} {w : Nat}

/-- On a single objective a candidate fits if its fitness is at most that of its row. -/
theorem fits_iff_le {run : Run α P} {c : Candidate α}
    (old : Dominance.Numbers 1 (run.fitnessOf (c.place run))) (new : Dominance.Numbers 1 c.f) :
    c.fits run = true ↔ c.f.gene 0 ≤ (run.fitnessOf (c.place run)).gene 0 := by
  rw [Candidate.fits, Bool.not_eq_true', ← Dominance.notWorse_iff new old, Dominance.notWorse,
    new.size]
  simp

/-- A population of the shape that calls leave (`visited_formed`) was evaluated, its fitness is
numbers, and candidates with numbers for fitness are offered to different rows. Those that their row
does not dominate take its place, moved into the box, and are not stale then; all other rows and
whatever else there is of the run stay as they were. The answer is which candidates these are. On a
single objective they are those whose fitness is at most the row's. The same comes of candidates
that a step of the run evaluated itself, and of candidates that are offered one after another, in
any order. -/
theorem acceptance_row_local (formed : s.1.Formed) (measured : s.1.Measured w)
    (evaluated : s.1.F = some stored) (numeric : stored.Numeric)
    (suits : ∀ c ∈ cs, c.Suits w s.1 ∧ c.f.Numeric) (distinct : (cs.map (·.place s.1)).Nodup) :
    ∃ run', (offer s.1.dim w cs).run s = (.ok (cs.map (·.fits s.1)).toArray, run', s.2) ∧
      Decided cs s.1 run' ∧
      (w = 1 → ∀ c ∈ cs,
        (c.fits s.1 = true ↔ c.f.gene 0 ≤ (s.1.fitnessOf (c.place s.1)).gene 0)) ∧
      s.1.accept stored (cs.map (·.place s.1)) (cs.map (·.x)).toArray (cs.map (·.f)).toArray =
        ((cs.map (·.fits s.1)).toArray, run') ∧
      ∀ order : List (Candidate α), order.Perm cs →
        (order.mapM fun c => offer s.1.dim w [c]).run s =
          (.ok (order.map fun c => #[c.fits s.1]), run', s.2) := by
  have suited : ∀ c ∈ cs, c.Suits w s.1 := fun c hc => (suits c hc).1
  have shaped := (formed.size_row evaluated measured).1
  have decided := decided_receive formed evaluated suited distinct
  refine ⟨_, run_offer formed evaluated measured suited, decided, ?_,
    accept_candidates evaluated, ?_⟩
  · rintro rfl c hc
    refine fits_iff_le ?_ ⟨(suited c hc).fitness, (suits c hc).2⟩
    rw [fitnessOf_eq_row evaluated]
    exact ⟨shaped.row (place_lt formed c), stored.numeric_row numeric _⟩
  · intro order perm
    have distinct' : (order.map (·.place s.1)).Nodup := (perm.map _).nodup_iff.mpr distinct
    obtain ⟨run', offered, same⟩ := run_offer_each formed evaluated measured
      (fun c hc => suited c (perm.mem_iff.mp hc)) distinct'
    rw [offered, same.unique (decided.perm perm)]

end Local

/-- A candidate beyond the border for the last row, and one that is worse for the first row. -/
def rivals : List (Candidate Float) :=
  [⟨-1, #[2.0], #[0.5, 0.5]⟩, ⟨0, #[0.5], #[1.0, 2.0]⟩]

theorem rivals_suit : ∀ c ∈ rivals, c.Suits 2 bothRated.1 ∧ c.f.Numeric := by
  have size : bothRated.1.popSize = 2 := by decide +kernel
  have dim : bothRated.1.dim = 1 := by decide +kernel
  have each : rivals.all fun c => decide (Names 2 c.index) && c.x.size == 1 && c.f.size == 2 &&
      c.f.all (!Scalar.isNaN ·) := by decide +kernel
  intro c hc
  have good := List.all_eq_true.mp each c hc
  simp only [Bool.and_eq_true, decide_eq_true_eq, beq_iff_eq] at good
  obtain ⟨⟨⟨names, position⟩, fitness⟩, numbers⟩ := good
  refine ⟨⟨by rwa [size], by rwa [dim], fitness⟩, Row.numeric_of_mem fun a ha => ?_⟩
  simpa using Array.all_eq_true'.mp numbers a ha

/-- The last row takes the first candidate, as neither of them dominates the other. -/
theorem acceptance_row_local_rivals :
    ∃ run', (offer 1 2 rivals).run bothRated = (.ok #[true, false], run', bothRated.2) ∧
      run'.standing 1 = (some (bothRated.1.bounds.clip #[2.0]), some #[0.5, 0.5], some false) ∧
      run'.standing 0 = bothRated.1.standing 0 ∧
      (rivals.reverse.mapM fun c => offer 1 2 [c]).run bothRated =
        (.ok [#[false], #[true]], run', bothRated.2) := by
  obtain ⟨stored, known⟩ := Option.isSome_iff_exists.mp
    (by decide +kernel : bothRated.1.F.isSome = true)
  have numeric : stored.Numeric := by
    have all : (bothRated.1.F.getD #[]).all (·.all (!Scalar.isNaN ·)) = true := by decide +kernel
    rw [known, Option.getD_some, Array.all_eq_true'] at all
    refine fun x hx => Row.numeric_of_mem fun a ha => ?_
    simpa using Array.all_eq_true'.mp (all x hx) a ha
  have places : rivals.map (·.place bothRated.1) = [1, 0] := by decide +kernel
  have verdicts : rivals.map (·.fits bothRated.1) = [true, false] := by decide +kernel
  obtain ⟨run', offered, decided, -, -, each⟩ :=
    acceptance_row_local (visited_formed fromBorders_full bothRated_visited) bothRated_measured
      known numeric rivals_suit (by rw [places]; decide)
  have dim : bothRated.1.dim = 1 := by decide +kernel
  have backwards := each rivals.reverse (List.reverse_perm rivals)
  rw [dim, verdicts] at offered
  rw [dim] at backwards
  simp only [rivals, List.map_cons, List.map_nil, List.cons.injEq, and_true] at places verdicts
  refine ⟨run', offered, ?_, ?_, backwards.trans ?_⟩
  · have taken := decided.taken ⟨-1, #[2.0], #[0.5, 0.5]⟩ (by simp [rivals]) verdicts.1
    rwa [places.1] at taken
  · refine decided.left 0 fun c hc here => ?_
    simp only [rivals, List.mem_cons, List.not_mem_nil, or_false] at hc
    rcases hc with rfl | rfl
    · rw [places.1] at here
      cases here
    · exact verdicts.2
  · simp [rivals, verdicts]

end Run

end BoxSearch
