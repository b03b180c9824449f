import BoxSearch.Proofs.Scalar.Order
import BoxSearch.Run.Basic

/-!
Positions and fitness of a population stay together.

They are stored side by side and written through lists of places and masks. The invariant says that
the fitness of every row that is up to date goes with the position in that row, and that every stale
row lies where moving it into the box leaves it. Each way to write rows keeps it, provided that what
is written goes together.
-/

namespace BoxSearch

/-- Which fitness and which payload go with a point. -/
abbrev Rating (α P : Type) := Row α → Row α → Option P → Prop

section Writing

variable {β : Type}

@[simp]
theorem size_writeAt (xs : Array β) (places : List Nat) (values : Array β) :
    (writeAt xs places values).size = xs.size := by
  have loop (pairs : List (Nat × β)) (xs : Array β) :
      (pairs.foldl (fun xs pair => xs.setIfInBounds pair.1 pair.2) xs).size = xs.size := by
    induction pairs generalizing xs with
    | nil => rfl
    | cons pair pairs ih => rw [List.foldl_cons, ih, Array.size_setIfInBounds]
  exact loop _ _

/-- Writing at places leaves an entry alone, or puts the value there that belongs to the last of its
places. Which one that is depends on the places only, so arrays written side by side stay so. -/
theorem writeAt_cases (places : List Nat) (i : Nat) :
    (i ∉ places ∧ ∀ {β : Type} (xs values : Array β), (writeAt xs places values)[i]? = xs[i]?) ∨
    ∃ k : Nat, places[k]? = some i ∧ ∀ {β : Type} (xs values : Array β),
      places.length ≤ values.size → i < xs.size → (writeAt xs places values)[i]? = values[k]? := by
  have lists (places : List Nat) :
      (i ∉ places ∧ ∀ {β : Type} (xs : Array β) (vs : List β),
        (writeAt xs places vs.toArray)[i]? = xs[i]?) ∨
      ∃ k : Nat, places[k]? = some i ∧ ∀ {β : Type} (xs : Array β) (vs : List β),
        places.length ≤ vs.length → i < xs.size → (writeAt xs places vs.toArray)[i]? = vs[k]? := by
    induction places with
    | nil => exact .inl ⟨by simp, fun _ _ => rfl⟩
    | cons p places ih =>
      rcases ih with ⟨absent, kept⟩ | ⟨k, hk, written⟩
      · by_cases here : p = i
        · refine .inr ⟨0, by simp [here], fun xs vs enough inside => ?_⟩
          cases vs with
          | nil => simp at enough
          | cons v vs =>
            have first := kept (xs.setIfInBounds p v) vs
            rw [here, Array.getElem?_setIfInBounds_self_of_lt inside] at first
            rw [here]
            exact first
        · refine .inl ⟨by simp [absent, Ne.symm here], fun xs vs => ?_⟩
          cases vs with
          | nil => rfl
          | cons v vs =>
            have first := kept (xs.setIfInBounds p v) vs
            rw [Array.getElem?_setIfInBounds_ne here] at first
            exact first
      · refine .inr ⟨k + 1, by simpa using hk, fun xs vs enough inside => ?_⟩
        cases vs with
        | nil => simp at enough
        | cons v vs =>
          have enough' : places.length ≤ vs.length := by simpa using enough
          have inside' : i < (xs.setIfInBounds p v).size := by simpa using inside
          exact written (xs.setIfInBounds p v) vs enough' inside'
  rcases lists places with ⟨absent, kept⟩ | ⟨k, hk, written⟩
  · exact .inl ⟨absent, fun xs values => kept xs values.toList⟩
  · refine .inr ⟨k, hk, fun xs values enough inside => ?_⟩
    have result := written xs values.toList (by simpa using enough) inside
    simpa using result

/-- Writing at all places replaces the array. -/
theorem writeAt_range {xs values : Array β} {n : Nat} (size : xs.size = n)
    (enough : values.size = n) : writeAt xs (List.range n) values = values := by
  apply Array.ext_getElem?
  intro i
  by_cases inside : i < n
  · rcases writeAt_cases (List.range n) i with ⟨absent, -⟩ | ⟨k, place, written⟩
    · exact absurd (List.mem_range.mpr inside) absent
    · obtain ⟨_, same⟩ := List.getElem?_eq_some_iff.mp place
      rw [List.getElem_range] at same
      rw [written xs values (by simp [enough]) (by rwa [size]), same]
  · rw [Array.getElem?_eq_none (by rw [size_writeAt]; omega), Array.getElem?_eq_none (by omega)]

theorem row_eq_of_getElem? {X Y : Rows β} {i j : Nat} (h : X[i]? = Y[j]?) :
    X.row i = Y.row j := by
  rw [Rows.row, Rows.row, Array.getD_eq_getD_getElem?, Array.getD_eq_getD_getElem?, h]

end Writing

variable {α P : Type} [Scalar α]

namespace Rating

/-- The point has the fitness, whatever its payload is. -/
def Pairs (R : Rating α P) (x f : Row α) : Prop :=
  ∃ product, R x f product

/-- Row by row, the points have the fitness once they are moved into the box. -/
structure Rates (R : Rating α P) (box : Bounds α) (X F : Rows α) : Prop where
  size : F.size = X.size
  rows : ∀ k < X.size, R.Pairs (box.clip (X.row k)) (F.row k)

/-- A population: every row has the fitness that goes with it, unless it is stale. Moving stale rows
into the box leaves them where they are. -/
structure Holds (R : Rating α P) (box : Bounds α) (n : Nat) (X : Rows α) (F : Option (Rows α))
    (stale : Array Bool) : Prop where
  sizeX : X.size = n
  sizeStale : stale.size = n
  sizeF : ∀ F', F = some F' → F'.size = n
  rated : ∀ i < n, stale[i]? = some false → ∃ F', F = some F' ∧ R.Pairs (X.row i) (F'.row i)
  boxed : ∀ i < n, stale[i]? = some true → box.clip (X.row i) = X.row i

end Rating

namespace Run

/-- Positions and fitness of the population go together. -/
def Paired (R : Rating α P) (run : Run α P) : Prop :=
  R.Holds run.bounds run.popSize run.X run.F run.stale

variable {R : Rating α P} {run : Run α P}

theorem row_clipRows (box : Bounds α) {X : Rows α} {k : Nat} (h : k < X.size) :
    (box.clipRows X).row k = box.clip (X.row k) := by
  simp [Bounds.clipRows, Rows.row, h]

/-- A row is marked if it is at one of the places, and keeps its mark otherwise. -/
theorem stale_mark {places : List Nat} {stale : Bool} {i : Nat} (inside : i < run.stale.size) :
    (run.mark places stale).stale[i]? = if i ∈ places then some stale else run.stale[i]? := by
  rcases writeAt_cases places i with ⟨absent, kept⟩ | ⟨k, hk, written⟩
  · rw [if_neg absent]
    exact kept run.stale _
  · obtain ⟨below, _⟩ := List.getElem?_eq_some_iff.mp hk
    rw [if_pos (List.mem_of_getElem? hk)]
    refine (written run.stale (Array.replicate places.length stale) (by simp) inside).trans ?_
    simp [below]

/-- Where a row of an overwritten population comes from: from its own place, or position and fitness
from the same place of what was written. -/
theorem overwrite_cases (run : Run α P) {places : List Nat} {X F : Rows α}
    (size : X.size = places.length) (sizeF : F.size = X.size) {i : Nat} (hi : i < run.X.size) :
    (i ∉ places ∧ (run.overwrite places X F).X.row i = run.X.row i ∧
      ∀ stored : Rows α, Rows.row (writeAt stored places F) i = stored.row i) ∨
    (i ∈ places ∧ ∃ k < X.size, (run.overwrite places X F).X.row i = run.bounds.clip (X.row k) ∧
      ∀ stored : Rows α, i < stored.size → Rows.row (writeAt stored places F) i = F.row k) := by
  rcases writeAt_cases places i with ⟨absent, kept⟩ | ⟨k, hk, written⟩
  · refine .inl ⟨absent, row_eq_of_getElem? (kept run.X _), fun stored => ?_⟩
    exact row_eq_of_getElem? (kept stored F)
  · have below := (List.getElem?_eq_some_iff.mp hk).1
    refine .inr ⟨List.mem_of_getElem? hk, k, by omega, ?_, fun stored inside => ?_⟩
    · rw [← row_clipRows _ (by omega)]
      refine row_eq_of_getElem? (written run.X _ ?_ hi)
      rw [Bounds.size_clipRows]
      omega
    · exact row_eq_of_getElem? (written stored F (by omega) inside)

/-- Rows that are overwritten with points and their fitness have the fitness that goes with them. -/
theorem paired_overwrite (h : run.Paired R) {places : List Nat} {X F : Rows α}
    (size : X.size = places.length) (rates : R.Rates run.bounds X F)
    (evaluated : run.F.isSome = true) : (run.overwrite places X F).Paired R := by
  obtain ⟨stored, hstored⟩ := Option.isSome_iff_exists.mp evaluated
  have newF : (run.overwrite places X F).F = some (writeAt stored places F) := by
    change run.F.map _ = _
    rw [hstored]
    rfl
  have sizeStored := h.sizeF stored hstored
  have mark {i : Nat} (hi : i < run.popSize) : (run.overwrite places X F).stale[i]? =
      if i ∈ places then some false else run.stale[i]? := by
    exact stale_mark (Nat.lt_of_lt_of_eq hi h.sizeStale.symm)
  refine ⟨?_, ?_, ?_, ?_, ?_⟩
  · exact (size_writeAt _ _ _).trans h.sizeX
  · exact (size_writeAt _ _ _).trans h.sizeStale
  · intro F' hF'
    rw [newF] at hF'
    cases hF'
    exact (size_writeAt _ _ _).trans sizeStored
  · intro i hi fresh
    refine ⟨_, newF, ?_⟩
    rcases overwrite_cases run size rates.size (Nat.lt_of_lt_of_eq hi h.sizeX.symm) with
      ⟨absent, row, fitness⟩ | ⟨_, k, hk, row, fitness⟩
    · rw [mark hi, if_neg absent] at fresh
      obtain ⟨F', hF', pair⟩ := h.rated i hi fresh
      rw [hstored] at hF'
      cases hF'
      rw [row, fitness]
      exact pair
    · rw [row, fitness stored (Nat.lt_of_lt_of_eq hi sizeStored.symm)]
      exact rates.rows k hk
  · intro i hi stale
    rcases overwrite_cases run size rates.size (Nat.lt_of_lt_of_eq hi h.sizeX.symm) with
      ⟨absent, row, _⟩ | ⟨present, _⟩
    · rw [mark hi, if_neg absent] at stale
      rw [row]
      exact h.boxed i hi stale
    · rw [mark hi, if_pos present] at stale
      cases stale

theorem mem_stalePlaces {i : Nat} :
    i ∈ run.stalePlaces ↔ i < run.popSize ∧ run.stale.getD i false = true := by
  simp [stalePlaces]

/-- A row of the population is stale or up to date. -/
theorem stale_or_fresh (h : run.Paired R) {i : Nat} (hi : i < run.popSize) :
    (i ∈ run.stalePlaces ∧ run.stale[i]? = some true) ∨
      (i ∉ run.stalePlaces ∧ run.stale[i]? = some false) := by
  have inside : i < run.stale.size := by
    rw [h.sizeStale]
    exact hi
  have entry : run.stale[i]? = some run.stale[i] := Array.getElem?_eq_getElem inside
  have mem : i ∈ run.stalePlaces ↔ run.stale[i] = true := by
    simp [mem_stalePlaces, hi, inside]
  rw [entry, mem]
  cases run.stale[i] <;> simp

/-- Without stale rows every row has the fitness that goes with it. -/
theorem pairs_of_fresh (h : run.Paired R) (none : run.stalePlaces = []) {F : Rows α}
    (stored : run.F = some F) : ∀ i < run.popSize, R.Pairs (run.X.row i) (F.row i) := by
  intro i hi
  rcases stale_or_fresh h hi with ⟨stale, _⟩ | ⟨_, fresh⟩
  · rw [none] at stale
    cases stale
  · obtain ⟨F', hF', pair⟩ := h.rated i hi fresh
    rw [stored] at hF'
    cases hF'
    exact pair

theorem stalePlaces_eq_nil (h : ∀ i < run.popSize, run.stale[i]? = some false) :
    run.stalePlaces = [] := by
  apply List.eq_nil_iff_forall_not_mem.mpr
  intro i hi
  obtain ⟨below, stale⟩ := mem_stalePlaces.mp hi
  rw [Array.getD_eq_getD_getElem?, h i below] at stale
  cases stale

/-- The fitness that rows are settled into: what was known, or no fitness worth having. -/
def knownFitness (run : Run α P) (F : Rows α) : Rows α :=
  run.F.getD (Array.replicate run.popSize (Row.tabulate (F.row 0).size fun _ => Scalar.infinity))

theorem size_knownFitness (sizeF : ∀ F', run.F = some F' → F'.size = run.popSize) (F : Rows α) :
    (run.knownFitness F).size = run.popSize := by
  cases stored : run.F with
  | none => simp [knownFitness, stored]
  | some F' =>
    have size := sizeF F' stored
    simpa [knownFitness, stored] using size

/-- After the stale rows have been settled, a row has the fitness that goes with it, whether it was
stale before or not. -/
theorem pairs_settle (h : run.Paired R) {F : Rows α}
    (rates : R.Rates run.bounds (run.stalePlaces.map run.X.row).toArray F) {i : Nat}
    (hi : i < run.popSize) :
    R.Pairs (run.X.row i) (Rows.row (writeAt (run.knownFitness F) run.stalePlaces F) i) := by
  have count : (run.stalePlaces.map run.X.row).toArray.size = run.stalePlaces.length := by simp
  have sizeF : F.size = run.stalePlaces.length := rates.size.trans count
  rcases writeAt_cases run.stalePlaces i with ⟨absent, kept⟩ | ⟨k, hk, written⟩
  · rcases stale_or_fresh h hi with ⟨present, _⟩ | ⟨_, fresh⟩
    · exact absurd present absent
    obtain ⟨F', hF', pair⟩ := h.rated i hi fresh
    have fitness : Rows.row (writeAt (run.knownFitness F) run.stalePlaces F) i = F'.row i := by
      rw [row_eq_of_getElem? (kept (run.knownFitness F) F)]
      simp [knownFitness, hF']
    rw [fitness]
    exact pair
  · obtain ⟨below, place⟩ := List.getElem?_eq_some_iff.mp hk
    rcases stale_or_fresh h hi with ⟨_, stale⟩ | ⟨absent, _⟩
    · have inside : i < (run.knownFitness F).size := by
        rw [size_knownFitness h.sizeF]
        exact hi
      have fitness : Rows.row (writeAt (run.knownFitness F) run.stalePlaces F) i = F.row k :=
        row_eq_of_getElem? (written (run.knownFitness F) F (by omega) inside)
      have row : Rows.row (run.stalePlaces.map run.X.row).toArray k = run.X.row i := by
        simp [Rows.row, below, place]
      have pair := rates.rows k (by omega)
      rw [row, h.boxed i hi stale] at pair
      rw [fitness]
      exact pair
    · exact absurd (List.mem_of_getElem? hk) absent

/-- The rows that an evaluation settles are up to date, and so are all others. -/
theorem paired_settle (h : run.Paired R) {F : Rows α}
    (rates : R.Rates run.bounds (run.stalePlaces.map run.X.row).toArray F) :
    (run.settle run.stalePlaces F).Paired R ∧ (run.settle run.stalePlaces F).stalePlaces = [] := by
  have newF : (run.settle run.stalePlaces F).F =
      some (writeAt (run.knownFitness F) run.stalePlaces F) := rfl
  have settled : ∀ i < run.popSize, (run.settle run.stalePlaces F).stale[i]? = some false := by
    intro i hi
    refine (stale_mark (Nat.lt_of_lt_of_eq hi h.sizeStale.symm)).trans ?_
    rcases stale_or_fresh h hi with ⟨present, _⟩ | ⟨absent, fresh⟩
    · rw [if_pos present]
    · rw [if_neg absent]
      exact fresh
  refine ⟨⟨h.sizeX, ?_, ?_, ?_, ?_⟩, stalePlaces_eq_nil settled⟩
  · exact (size_writeAt _ _ _).trans h.sizeStale
  · intro F' hF'
    rw [newF] at hF'
    cases hF'
    exact (size_writeAt _ _ _).trans (size_knownFitness h.sizeF F)
  · intro i hi _
    exact ⟨_, newF, pairs_settle h rates hi⟩
  · intro i hi stale
    rw [settled i hi] at stale
    cases stale

section Selecting

/-- A mask selects the same places from every list. -/
theorem selected_cases (mask : Array Bool) (k : Nat) :
    (∃ j : Nat, ∀ {β : Type} (xs : List β), (selected mask xs)[k]? = xs[j]?) ∨
      ∀ {β : Type} (xs : List β), (selected mask xs)[k]? = none := by
  have lists (mask : List Bool) (k : Nat) :
      (∃ j : Nat, ∀ {β : Type} (xs : List β), (selected mask.toArray xs)[k]? = xs[j]?) ∨
        ∀ {β : Type} (xs : List β), (selected mask.toArray xs)[k]? = none := by
    induction mask generalizing k with
    | nil => exact .inr fun xs => by simp [selected]
    | cons b mask ih =>
      cases b with
      | false =>
        rcases ih k with ⟨j, found⟩ | none
        · refine .inl ⟨j + 1, fun xs => ?_⟩
          cases xs with
          | nil => simp [selected]
          | cons x xs => simpa [selected] using found xs
        · refine .inr fun xs => ?_
          cases xs with
          | nil => simp [selected]
          | cons x xs => simpa [selected] using none xs
      | true =>
        cases k with
        | zero =>
          refine .inl ⟨0, fun xs => ?_⟩
          cases xs <;> simp [selected]
        | succ k =>
          rcases ih k with ⟨j, found⟩ | none
          · refine .inl ⟨j + 1, fun xs => ?_⟩
            cases xs with
            | nil => simp [selected]
            | cons x xs => simpa [selected] using found xs
          · refine .inr fun xs => ?_
            cases xs with
            | nil => simp [selected]
            | cons x xs => simpa [selected] using none xs
  exact lists mask.toList k

/-- From lists of one length a mask selects lists of one length. -/
theorem length_selected {β γ : Type} (mask : Array Bool) {xs : List β} {ys : List γ}
    (h : xs.length = ys.length) : (selected mask xs).length = (selected mask ys).length := by
  have shorter {β γ : Type} {xs : List β} {ys : List γ} (h : xs.length = ys.length) :
      (selected mask xs).length ≤ (selected mask ys).length := by
    rcases Nat.lt_or_ge (selected mask ys).length (selected mask xs).length with more | fewer
    · -- the entry behind the last one of `ys` is missing in `xs` as well
      have beyond : (selected mask ys)[(selected mask ys).length]? = none := by simp
      rcases selected_cases mask (selected mask ys).length with ⟨j, found⟩ | none
      · have past : ys.length ≤ j := by
          rw [← List.getElem?_eq_none_iff, ← found ys]
          exact beyond
        have last : (selected mask xs)[(selected mask ys).length]? = none := by
          rw [found xs, List.getElem?_eq_none_iff]
          omega
        have ends := List.getElem?_eq_none_iff.mp last
        omega
      · have ends := List.getElem?_eq_none_iff.mp (none xs)
        omega
    · exact fewer
  exact Nat.le_antisymm (shorter h) (shorter h.symm)

/-- What a mask selects from points and their fitness goes together. -/
theorem rates_selected {box : Bounds α} {X F : Rows α} (mask : Array Bool)
    (rates : R.Rates box X F) :
    R.Rates box (selected mask X.toList).toArray (selected mask F.toList).toArray := by
  have lengths : F.toList.length = X.toList.length := rates.size
  refine ⟨length_selected mask lengths, fun k hk => ?_⟩
  rcases selected_cases mask k with ⟨j, found⟩ | none
  · have row : Rows.row (selected mask X.toList).toArray k = X.row j :=
      row_eq_of_getElem? (by simpa using found X.toList)
    have fitness : Rows.row (selected mask F.toList).toArray k = F.row j :=
      row_eq_of_getElem? (by simpa using found F.toList)
    have inside : j < X.size := by
      have there : k < (selected mask X.toList).length := hk
      have entry := found X.toList
      rw [List.getElem?_eq_getElem there] at entry
      simpa using (List.getElem?_eq_some_iff.mp entry.symm).1
    rw [row, fitness]
    exact rates.rows j inside
  · have beyond := List.getElem?_eq_none_iff.mp (none X.toList)
    have there : k < (selected mask X.toList).length := hk
    omega

/-- Accepting candidates keeps positions and fitness together. -/
theorem paired_accept (h : run.Paired R) {F newX newF : Rows α} {places : List Nat}
    (size : newX.size = places.length) (rates : R.Rates run.bounds newX newF)
    (evaluated : run.F.isSome = true) : (run.accept F places newX newF).2.Paired R := by
  have lengths : newX.toList.length = places.length := size
  exact paired_overwrite h (length_selected _ lengths) (rates_selected _ rates) evaluated

end Selecting

theorem stale_moveAll (size : run.stale.size = run.popSize) (X : Rows α) {i : Nat}
    (hi : i < run.popSize) : (run.moveAll X).stale[i]? = some true := by
  refine (stale_mark (Nat.lt_of_lt_of_eq hi size.symm)).trans ?_
  rw [if_pos (List.mem_range.mpr hi)]

theorem stalePlaces_moveAll (size : run.stale.size = run.popSize) (X : Rows α) :
    (run.moveAll X).stalePlaces = List.range run.popSize := by
  apply List.filter_eq_self.mpr
  intro i hi
  have marked := stale_moveAll size X (List.mem_range.mp hi)
  rw [Array.getD_eq_getD_getElem?, marked]
  rfl

variable [OrderedScalar α]

/-- Rows that all move are stale, and lie in the box. -/
theorem paired_moveAll {X : Rows α} (size : X.size = run.popSize) (sizeX : run.X.size = run.popSize)
    (sizeStale : run.stale.size = run.popSize)
    (sizeF : ∀ F, run.F = some F → F.size = run.popSize) : (run.moveAll X).Paired R := by
  have moved : (run.moveAll X).X = run.bounds.clipRows X :=
    writeAt_range sizeX ((Bounds.size_clipRows _ _).trans size)
  refine ⟨?_, ?_, sizeF, ?_, ?_⟩
  · exact (size_writeAt _ _ _).trans sizeX
  · exact (size_writeAt _ _ _).trans sizeStale
  · intro i hi fresh
    rw [stale_moveAll sizeStale X hi] at fresh
    cases fresh
  · intro i hi _
    rw [moved, row_clipRows _ (Nat.lt_of_lt_of_eq hi size.symm)]
    exact Bounds.clip_clip _ _

end Run

end BoxSearch
