import BoxSearch.Proofs.Evaluation.Parallel
import BoxSearch.Proofs.Run.Formed
import Mathlib.Data.List.Perm.Basic

/-!
Which rows end up where when the results of chunks are put together.

A chunk need not answer as many rows as it was shown. Results are put together if and only if all of
them have one width and none reaches beyond the end of the batch. A row then comes from its own
chunk as long as the answer of that chunk reaches it. Whether the answers reach all their rows is
not looked at, while a batch that is evaluated in one piece must have a row for each candidate.
-/

namespace BoxSearch

namespace Part

variable {α P : Type}

/-- The part has rows of the width, and they end inside the batch. -/
def Fits (n width : Nat) (part : Part α P) : Prop :=
  ∃ rows, part.block.fitness.rows? = some (width, rows) ∧ part.start + rows.size ≤ n

/-- Of the rows of a slice, those that the part reaches are the part's. -/
def Owns (width : Nat) (R : Rows α) (s : Slice) (part : Part α P) : Prop :=
  ∀ rows, part.block.fitness.rows? = some (width, rows) →
    ∀ i, s.start ≤ i → i < s.stop → i < s.start + rows.size → R[i]? = rows[i - s.start]?

/-- The parts start where the slices do. -/
abbrev Cuts (slices : List Slice) (parts : List (Part α P)) : Prop :=
  List.Forall₂ (fun s part => part.start = s.start) slices parts

variable {n width : Nat} {filling next : Filling α P} {part : Part α P}

theorem place_of_fits (fits : part.Fits n width) (filling : Filling α P) :
    ∃ next, place n width filling part = .ok next := by
  obtain ⟨rows, cut, inside⟩ := fits
  have within : ¬(decide (n < part.start + rows.size) && decide (1 < rows.size)) = true := by
    simp [Nat.not_lt.mpr inside]
  rw [place, cut]
  simp [within]

/-- A part that starts inside the batch can be placed only if it fits. Its rows are then written from
its start on, and the others are kept. -/
theorem fits_of_place (starts : part.start < n) (h : place n width filling part = .ok next) :
    ∃ rows, part.block.fitness.rows? = some (width, rows) ∧ part.start + rows.size ≤ n ∧
      next.rows.size = filling.rows.size ∧
      ∀ j, next.rows[j]? = if part.start ≤ j ∧ j < part.start + rows.size ∧ j < filling.rows.size
        then some (rows.row (j - part.start)) else filling.rows[j]? := by
  rw [place] at h
  cases cut : part.block.fitness.rows? with
  | none =>
    rw [cut] at h
    cases h
  | some found =>
    obtain ⟨w, rows⟩ := found
    rw [cut] at h
    dsimp only at h
    split at h
    case isTrue => cases h
    case isFalse same =>
    split at h
    case isTrue => cases h
    case isFalse within =>
      cases h
      have width : w = width := by simpa using same
      have inside : part.start + rows.size ≤ n := by
        simp at within
        omega
      rw [width]
      exact ⟨rows, rfl, inside, size_written _ _ _ _, getElem?_written _ _ _ _⟩

theorem shaped_place (starts : part.start < n) (full : part.block.Full)
    (shaped : filling.rows.Shaped n width) (h : place n width filling part = .ok next) :
    next.rows.Shaped n width := by
  obtain ⟨rows, cut, -, size, written⟩ := fits_of_place starts h
  refine ⟨size.trans shaped.size, fun r hr => ?_⟩
  obtain ⟨j, found⟩ := Array.mem_iff_getElem?.mp hr
  rw [written] at found
  split at found
  case isTrue here =>
    have below : j - part.start < rows.size := by omega
    cases found
    exact Tensor.even_rows? full cut _ (by simp [Rows.row, below])
  case isFalse => exact shaped.each r (Array.mem_of_getElem? found)

variable {parts arrived : List (Part α P)} {last : Filling α P} {slices : List Slice}

theorem foldlM_of_fits (fits : ∀ part ∈ parts, part.Fits n width) (filling : Filling α P) :
    ∃ last, parts.foldlM (place n width) filling = .ok last := by
  induction parts generalizing filling with
  | nil => exact ⟨filling, rfl⟩
  | cons part parts ih =>
    obtain ⟨next, placed⟩ := place_of_fits (fits part List.mem_cons_self) filling
    obtain ⟨last, others⟩ := ih (fun q hq => fits q (List.mem_cons_of_mem _ hq)) next
    refine ⟨last, ?_⟩
    rw [List.foldlM_cons, placed]
    exact others

/-- Parts that start where the slices of a tiling do write their own rows, and none of those before.
What a part writes is overwritten only where the slices of later parts are. -/
theorem owns_of_foldlM {start : Nat} (tiles : Slice.Tiles n start slices) (cuts : Cuts slices parts)
    (full : ∀ part ∈ parts, part.block.Full)
    (shaped : filling.rows.Shaped n width)
    (h : parts.foldlM (place n width) filling = .ok last) :
    last.rows.Shaped n width ∧ (∀ i < start, last.rows[i]? = filling.rows[i]?) ∧
      List.Forall₂ (fun s part => part.Fits n width ∧ part.Owns width last.rows s) slices parts := by
  induction tiles generalizing parts filling with
  | done =>
    cases cuts
    cases h
    exact ⟨shaped, fun _ _ => rfl, .nil⟩
  | @next start stop slices nonempty inside rest ih =>
    cases cuts with
    | @cons _ part _ parts starts cuts =>
    rw [List.foldlM_cons] at h
    obtain ⟨next, placed, others⟩ := of_bind h
    have here : part.start = start := starts
    have below : part.start < n := by omega
    obtain ⟨rows, cut, reaches, -, written⟩ := fits_of_place below placed
    have shaped' := shaped_place below (full part List.mem_cons_self) shaped placed
    have fullRest : ∀ q ∈ parts, q.block.Full := fun q hq => full q (List.mem_cons_of_mem _ hq)
    obtain ⟨whole, kept, owned⟩ := ih cuts fullRest shaped' others
    refine ⟨whole, fun i before => ?_, .cons ⟨⟨rows, cut, reaches⟩, ?_⟩ owned⟩
    · rw [kept i (by omega), written, if_neg (by omega)]
    · intro rows' cut' i above before reached
      obtain rfl : rows = rows' := by
        rw [cut] at cut'
        cases cut'
        rfl
      have size := shaped.size
      have among : i - start < rows.size := by
        dsimp only at reached
        omega
      rw [kept i before, written, if_pos (by omega), here]
      simp [Rows.row, among]

variable [Scalar α]

/-- Parts are put together from the first place on, with the width of the one that arrived first. -/
theorem stitch_eq_foldlM (nonempty : 0 < n) (tiles : Slice.Tiles n 0 slices)
    (cuts : Cuts slices parts) (perm : arrived.Perm parts) :
    ∃ part ∈ parts, stitch n arrived = match part.block.fitness.rows? with
      | none => .error (.fault .index)
      | some (width, _) => (parts.foldlM (place n width)
          ⟨Array.replicate n (Array.replicate width Scalar.zero), none⟩).map fun filled =>
            ⟨.ofRows width filled.rows, filled.products⟩ := by
  have increase : parts.Pairwise fun p q => p.start < q.start := by
    have starts : parts.map Part.start = slices.map Slice.start := by
      clear tiles perm
      induction cuts with
      | nil => rfl
      | cons first _ ih => rw [List.map_cons, List.map_cons, first, ih]
    have increase := List.pairwise_map.mpr (Slice.starts_increase tiles)
    rw [← starts] at increase
    exact List.pairwise_map.mp increase
  cases arrived with
  | nil =>
    rw [← perm.nil_eq] at cuts
    cases cuts
    cases tiles
    omega
  | cons part rest =>
    refine ⟨part, perm.mem_iff.mp List.mem_cons_self, ?_⟩
    rw [stitch, inOrder_eq perm increase, List.head?_cons, Option.bind_some]
    rfl

/-- The rows `R` are put together from parts, one for each slice. -/
structure PutTogether (n width : Nat) (slices : List Slice) (parts : List (Part α P)) (R : Rows α) :
    Prop where
  shaped : R.Shaped n width
  each : List.Forall₂ (fun s part => part.Fits n width ∧ part.Owns width R s) slices parts

omit [Scalar α] in
theorem PutTogether.fits {R : Rows α} (h : PutTogether n width slices parts R) :
    ∀ part ∈ parts, part.Fits n width :=
  forall_of_forall₂ h.each fun _ _ both => both.1

theorem putTogether_of_stitch (nonempty : 0 < n) (tiles : Slice.Tiles n 0 slices)
    (cuts : Cuts slices parts) (perm : arrived.Perm parts)
    (full : ∀ part ∈ parts, part.block.Full)
    {block : Block α P} (h : stitch n arrived = .ok block) :
    ∃ width R, block.fitness = .ofRows width R ∧ PutTogether n width slices parts R := by
  obtain ⟨part, -, stitched⟩ := stitch_eq_foldlM nonempty tiles cuts perm
  rw [stitched] at h
  cases cut : part.block.fitness.rows? with
  | none =>
    rw [cut] at h
    cases h
  | some found =>
    obtain ⟨width, rows⟩ := found
    rw [cut] at h
    obtain ⟨last, filled, rfl⟩ := of_map h
    have blank : Rows.Shaped n width
        (Array.replicate n (Array.replicate width (Scalar.zero : α))) := by
      refine ⟨Array.size_replicate, fun r hr => ?_⟩
      rw [Array.eq_of_mem_replicate hr, Array.size_replicate]
    obtain ⟨shaped, -, each⟩ := owns_of_foldlM tiles cuts full blank filled
    exact ⟨width, last.rows, rfl, shaped, each⟩

theorem stitch_of_fits (nonempty : 0 < n) (tiles : Slice.Tiles n 0 slices)
    (cuts : Cuts slices parts) (perm : arrived.Perm parts)
    (fits : ∀ part ∈ parts, part.Fits n width) : ∃ block, stitch n arrived = .ok block := by
  obtain ⟨part, hpart, stitched⟩ := stitch_eq_foldlM nonempty tiles cuts perm
  obtain ⟨rows, cut, -⟩ := fits part hpart
  obtain ⟨last, filled⟩ := foldlM_of_fits fits
    ⟨Array.replicate n (Array.replicate width Scalar.zero), none⟩
  rw [stitched, cut]
  dsimp only
  rw [filled]
  exact ⟨_, rfl⟩

theorem stitch_succeeds_iff (nonempty : 0 < n) (tiles : Slice.Tiles n 0 slices)
    (cuts : Cuts slices parts) (perm : arrived.Perm parts)
    (full : ∀ part ∈ parts, part.block.Full) :
    (∃ block, stitch n arrived = .ok block) ↔ ∃ width, ∀ part ∈ parts, part.Fits n width := by
  constructor
  · rintro ⟨block, stitched⟩
    obtain ⟨width, R, -, together⟩ := putTogether_of_stitch nonempty tiles cuts perm full stitched
    exact ⟨width, together.fits⟩
  · rintro ⟨width, fits⟩
    exact stitch_of_fits nonempty tiles cuts perm fits

end Part

namespace Backend

variable {σ : Type} {workers : Nat} {chunk : Option Int}

/-- What evaluating a chunk in some session results in, and where the chunk starts. -/
def ResultOf (target : Target σ) (X : Rows Float) (slice : Slice)
    (r : Nat × Except Error (Block Float Value)) : Prop :=
  ∃ t, r = (slice.start, outcomeOf target t (X.extract slice.start slice.stop))

/-- The part is what evaluating the chunk in some session answered. -/
def Answered (target : Target σ) (X : Rows Float) (slice : Slice) (part : Part Float Value) : Prop :=
  ∃ t, part.start = slice.start ∧
    outcomeOf target t (X.extract slice.start slice.stop) = .ok part.block

/-- The backend has a batch evaluated in chunks, each of them once and in some session, and gathers
the results in the order in which they arrive. One worker or one row needs no chunks. -/
def Gathers (backend : Backend σ) (target : Target σ) (workers : Nat) (chunk : Option Int) : Prop :=
  ∀ X s, 1 < workers → 1 < X.size → ∃ results arrived s',
    List.Forall₂ (ResultOf target X) (Slice.chunks X.size workers chunk) results ∧
    arrived.Perm results ∧ (backend.evaluate target X).run s = (gather X.size arrived, s')

theorem evaluateWith_gathers (target : Target σ) (X : Rows Float) (s : Session σ)
    (several : 1 < workers) (large : 1 < X.size) : ∃ results arrived s',
    List.Forall₂ (ResultOf target X) (Slice.chunks X.size workers chunk) results ∧
    arrived.Perm results ∧
      (evaluateWith workers chunk target X).run s = (gather X.size arrived, s') := by
  obtain ⟨results, s', run, -, each⟩ := evaluateChunks_results (J := fun _ => True)
    (fun _ _ _ => trivial) X (Slice.chunks X.size workers chunk) (s := s) trivial
  refine ⟨results, results, s', each.imp fun _ _ h => ?_, .refl _, ?_⟩
  · obtain ⟨t, -, same⟩ := h
    exact ⟨t, same⟩
  · have chunked : ¬(decide (workers ≤ 1) || decide (X.size ≤ 1)) = true := by
      simp
      omega
    rw [evaluateWith, if_neg chunked, run_bind, run]
    exact run_liftM _ s'

theorem threads_gathers (target : Target σ) :
    (threads workers chunk).Gathers target workers chunk :=
  evaluateWith_gathers target

theorem jobs_gathers (target : Target σ) : (jobs workers chunk).Gathers target workers chunk :=
  evaluateWith_gathers target

/-- Results that are gathered are parts, one for each chunk, with what the chunk was answered. -/
theorem parts_of_gather {n : Nat} {X : Rows Float} {target : Target σ} {slices : List Slice}
    {results arrived : List (Nat × Except Error (Block Float Value))} {block : Block Float Value}
    (each : List.Forall₂ (ResultOf target X) slices results) (perm : arrived.Perm results)
    (h : gather n arrived = .ok block) :
    ∃ parts arrived', List.Forall₂ (Answered target X) slices parts ∧ arrived'.Perm parts ∧
      Part.stitch n arrived' = .ok block := by
  rw [gather_eq] at h
  obtain ⟨arrived', made, stitched⟩ := of_bind h
  rw [partsOf, mapM_eq_ok_iff] at made
  obtain ⟨parts, matched, perm'⟩ := List.perm_comp_forall₂ perm.symm made
  refine ⟨parts, arrived', ?_, perm'.symm, stitched⟩
  clear h perm made stitched perm'
  induction each generalizing parts with
  | nil =>
    cases matched
    exact .nil
  | cons first _ ih =>
    cases matched with
    | cons head tail =>
    obtain ⟨t, rfl⟩ := first
    obtain ⟨b, answered, same⟩ := of_bind head
    cases same
    exact .cons ⟨t, rfl, answered⟩ (ih _ tail)

/-- A batch that was evaluated in chunks is put together from what the chunks were answered. -/
theorem putTogether_of_gather {X : Rows Float} {target : Target σ}
    {results arrived : List (Nat × Except Error (Block Float Value))} {block : Block Float Value}
    (full : Evaluator.Full target.evaluate) (nonempty : 0 < X.size)
    (each : List.Forall₂ (ResultOf target X) (Slice.chunks X.size workers chunk) results)
    (perm : arrived.Perm results) (h : gather X.size arrived = .ok block) :
    ∃ width R parts,
      List.Forall₂ (Answered target X) (Slice.chunks X.size workers chunk) parts ∧
      Part.PutTogether X.size width (Slice.chunks X.size workers chunk) parts R ∧
      block.fitness = .ofRows width R := by
  obtain ⟨parts, arrived', answered, perm', stitched⟩ := parts_of_gather each perm h
  have cuts : Part.Cuts (Slice.chunks X.size workers chunk) parts := by
    refine answered.imp fun _ _ h => ?_
    obtain ⟨_, starts, -⟩ := h
    exact starts
  have fullParts : ∀ part ∈ parts, part.block.Full := by
    refine forall_of_forall₂ answered fun _ part h => ?_
    obtain ⟨t, -, outcome⟩ := h
    exact full _ t _ _ (Prod.ext outcome rfl)
  obtain ⟨width, R, rows, together⟩ := Part.putTogether_of_stitch nonempty
    (Slice.chunks_tiles X.size workers chunk) cuts perm' fullParts stitched
  exact ⟨width, R, parts, answered, together, rows⟩

/-- Rows that a run has evaluated in chunks are put together from what the chunks were answered. -/
theorem putTogether_of_evaluate {target : Target σ} {backend : Backend σ}
    (full : Evaluator.Full target.evaluate) (gathers : backend.Gathers target workers chunk)
    (several : 1 < workers) {X F : Rows Float} (large : 1 < X.size)
    {s s' : Run Float Value × Session σ}
    (evaluated : (Search.evaluate (backend.evaluate target) X).run s = (.ok F, s')) :
    ∃ width R parts,
      List.Forall₂ (Answered target (s.1.bounds.clipRows X)) (Slice.chunks X.size workers chunk)
        parts ∧
      Part.PutTogether X.size width (Slice.chunks X.size workers chunk) parts R ∧
      F = Fitness.rankedRows R := by
  have size : (s.1.bounds.clipRows X).size = X.size := Bounds.size_clipRows _ _
  have filled : ¬(s.1.bounds.clipRows X).isEmpty = true := by
    rw [Array.isEmpty_iff_size_eq_zero]
    omega
  have outcome := Search.evaluate_ensures _ _ _ _ evaluated
  dsimp only at outcome
  rw [if_neg filled] at outcome
  obtain ⟨block, width, raw, ses, run, answered, shaped, -, -, rated, -⟩ := outcome
  obtain ⟨results, arrived, t, each, perm, gathered⟩ :=
    gathers (s.1.bounds.clipRows X) s.2 several (by omega)
  have whole : gather (s.1.bounds.clipRows X).size arrived = .ok block :=
    congrArg Prod.fst (gathered.symm.trans answered)
  obtain ⟨width', R, parts, answers, together, rows⟩ :=
    putTogether_of_gather full (by omega) each perm whole
  rw [size] at answers together
  have cut : Search.blockRows (s.1.bounds.clipRows X).size block = .ok (width', R) := by
    obtain ⟨fitness, products⟩ := block
    dsimp only at rows
    rw [rows]
    exact Search.blockRows_ofRows (together.shaped.size.trans size.symm) fun r hr =>
      together.shaped.each r (Array.mem_toList_iff.mp hr)
  have same := shaped.symm.trans cut
  cases same
  exact ⟨width, raw, parts, answers, together, rated⟩

/-- In one piece, another number of rows than there are candidates is turned away. -/
theorem serial_turns_away {target : Target σ} {X : Rows Float} (filled : 0 < X.size)
    {s : Run Float Value × Session σ} {block : Block Float Value} {session : Session σ}
    {count width : Nat}
    (answered : (target.evaluate (s.1.bounds.clipRows X)).run s.2 = (.ok block, session))
    (shape : block.fitness.shape = [count, width]) (other : count ≠ X.size) :
    (Search.evaluate ((serial : Backend σ).evaluate target) X).run s =
      (.error (.evaluation (.rowCount count X.size) none), (s.1, session)) := by
  have counted : Search.blockRows X.size block =
      .error (.evaluation (.rowCount count X.size) none) := by
    simp [Search.blockRows, shape, other]
  have run : ((serial : Backend σ).evaluate target (s.1.bounds.clipRows X)).run s.2 =
      (.ok block, session) := answered
  have rejected : ((((serial : Backend σ).evaluate target (s.1.bounds.clipRows X)).run s.2).1 >>=
      Search.blockRows X.size) = .error (.evaluation (.rowCount count X.size) none) := by
    rw [run]
    exact counted
  rw [Search.evaluate_rejects filled rejected, run]

/-- Whatever chunks are answered, and however many rows that is. Parts that tile a batch are put
together if and only if they have one width and none reaches beyond the end of the batch. A row then
comes from its own part if that part reaches it. The same holds of rows that a run has evaluated
in chunks, which it ranks. A batch that is evaluated in one piece fails unless it is answered with
one row for each candidate. -/
theorem rows_come_from_their_chunks (target : Target σ) (full : Evaluator.Full target.evaluate)
    (workers : Nat) (chunk : Option Int) :
    (∀ {n : Nat} {slices : List Slice} {parts arrived : List (Part Float Value)}, 0 < n →
      Slice.Tiles n 0 slices → Part.Cuts slices parts → arrived.Perm parts →
      (∀ part ∈ parts, part.block.Full) →
      ((∃ block, Part.stitch n arrived = .ok block) ↔
        ∃ width, ∀ part ∈ parts, part.Fits n width) ∧
      ∀ block, Part.stitch n arrived = .ok block → ∃ width R,
        block.fitness = .ofRows width R ∧ Part.PutTogether n width slices parts R) ∧
    (threads workers chunk).Gathers target workers chunk ∧
    (jobs workers chunk).Gathers target workers chunk ∧
    ∀ (X : Rows Float) (s : Run Float Value × Session σ), 1 < workers → 1 < X.size →
      let candidates := s.1.bounds.clipRows X
      let chunks := Slice.chunks X.size workers chunk
      (∀ backend : Backend σ, backend.Gathers target workers chunk → ∀ F s',
        (Search.evaluate (backend.evaluate target) X).run s = (.ok F, s') →
          ∃ width R parts, List.Forall₂ (Answered target candidates) chunks parts ∧
            Part.PutTogether X.size width chunks parts R ∧ F = Fitness.rankedRows R) ∧
      ∀ block session count width, (target.evaluate candidates).run s.2 = (.ok block, session) →
        block.fitness.shape = [count, width] → count ≠ X.size →
        (Search.evaluate ((serial : Backend σ).evaluate target) X).run s =
          (.error (.evaluation (.rowCount count X.size) none), (s.1, session)) := by
  refine ⟨?_, threads_gathers target, jobs_gathers target, ?_⟩
  · intro n slices parts arrived nonempty tiles cuts perm fullParts
    refine ⟨Part.stitch_succeeds_iff nonempty tiles cuts perm fullParts, fun block stitched => ?_⟩
    exact Part.putTogether_of_stitch nonempty tiles cuts perm fullParts stitched
  · intro X s several large candidates chunks
    constructor
    · intro backend gathers F s' evaluated
      exact putTogether_of_evaluate full gathers several large evaluated
    · intro block session count width answered shape other
      exact serial_turns_away (by omega) answered shape other

/-- Answers a batch with the first coordinate of its first row. -/
def firstOnly : Target Unit :=
  .evaluator "First" .unitInterval none fun X => return .ofRows 1 #[#[(X.row 0).gene 0]]

theorem firstOnly_full : Evaluator.Full firstOnly.evaluate := by
  intro rows session block session' answered
  cases answered
  simp [Block.Full, Tensor.ofRows, Tensor.places]

/-- A run in the unit interval before any evaluation. -/
def unrated : Run Float Value × Session Unit :=
  (.start .unitInterval 4 none .absent 0, ⟨(), #[]⟩)

/-- A chunk that is answered with some numbers, each of them a row. -/
def numbers (start : Nat) (xs : List Float) : Part Float Value :=
  ⟨start, ⟨.ofRows 1 (xs.map fun x => #[x]).toArray, none⟩⟩

theorem rows?_numbers (start : Nat) (xs : List Float) :
    (numbers start xs).block.fitness.rows? = some (1, (xs.map fun x => #[x]).toArray) :=
  Tensor.rows?_ofRows (by simp)

/-- One number for two rows is taken for the first of them, whichever chunk comes first. One number
for four rows is turned away. -/
theorem rows_come_from_their_chunks_short :
    (∃ block R, Part.stitch 4 [numbers 2 [0.5], numbers 0 [0.25]] = .ok block ∧
      block.fitness = .ofRows 1 R ∧ R[0]? = some #[0.25] ∧ R[2]? = some #[0.5]) ∧
    (Search.evaluate ((serial : Backend Unit).evaluate firstOnly)
      #[#[0.25], #[0.75], #[0.5], #[1.0]]).run unrated =
        (.error (.evaluation (.rowCount 1 4) none), unrated) := by
  obtain ⟨stitched, -, -, evaluated⟩ :=
    rows_come_from_their_chunks firstOnly firstOnly_full 2 none
  obtain ⟨-, whole⟩ := evaluated #[#[0.25], #[0.75], #[0.5], #[1.0]] unrated (by decide) (by decide)
  refine ⟨?_, whole ⟨.ofRows 1 _, none⟩ _ 1 1 rfl rfl (by decide)⟩
  have tiles : Slice.Tiles 4 0 [⟨0, 2⟩, ⟨2, 4⟩] :=
    .next (by decide) (by decide) (.next (by decide) (by decide) .done)
  have cuts : Part.Cuts [⟨0, 2⟩, ⟨2, 4⟩] [numbers 0 [0.25], numbers 2 [0.5]] :=
    .cons rfl (.cons rfl .nil)
  obtain ⟨succeeds, together⟩ := stitched (by decide) tiles cuts
    (.swap (numbers 0 [0.25]) (numbers 2 [0.5]) [])
    (by simp [numbers, Block.Full, Tensor.ofRows, Tensor.places])
  have fits : ∀ part ∈ [numbers 0 [0.25], numbers 2 [0.5]], part.Fits 4 1 := by
    simp only [List.forall_mem_cons, List.not_mem_nil, false_implies, implies_true, and_true]
    exact ⟨⟨_, rows?_numbers 0 _, by decide⟩, ⟨_, rows?_numbers 2 _, by decide⟩⟩
  obtain ⟨block, made⟩ := succeeds.mpr ⟨1, fits⟩
  obtain ⟨width, R, rows, -, each⟩ := together block made
  cases each with
  | cons first rest =>
  cases rest with
  | cons second _ =>
  obtain ⟨⟨found, read, -⟩, firstOwns⟩ := first
  obtain rfl : width = 1 := by
    rw [rows?_numbers] at read
    cases read
    rfl
  refine ⟨block, R, made, rows, ?_, ?_⟩
  · exact firstOwns _ (rows?_numbers 0 _) 0 (by decide) (by decide) (by decide)
  · exact second.2 _ (rows?_numbers 2 _) 2 (by decide) (by decide) (by decide)

/-- The first chunk of two rows is answered with four, the second with one. The last row is one that
the first chunk was answered. -/
theorem stitch_takes_row_of_another_chunk :
    ∃ block R, Part.stitch 4 [numbers 0 [1.0, 2.0, 3.0, 4.0], numbers 2 [9.0]] = .ok block ∧
      block.fitness = .ofRows 1 R ∧ R[3]? = some #[4.0] ∧ (#[4.0] : Row Float) ≠ #[9.0] := by
  have first : Part.place 4 1 ⟨Array.replicate 4 (Array.replicate 1 Scalar.zero), none⟩
      (numbers 0 [1.0, 2.0, 3.0, 4.0]) = .ok ⟨#[#[1.0], #[2.0], #[3.0], #[4.0]], none⟩ := by
    rw [Part.place, rows?_numbers]
    rfl
  have second : Part.place 4 1 ⟨#[#[1.0], #[2.0], #[3.0], #[4.0]], none⟩ (numbers 2 [9.0]) =
      .ok ⟨#[#[1.0], #[2.0], #[9.0], #[4.0]], none⟩ := by
    rw [Part.place, rows?_numbers]
    rfl
  refine ⟨⟨.ofRows 1 #[#[1.0], #[2.0], #[9.0], #[4.0]], none⟩, _, ?_, rfl, rfl, ?_⟩
  · rw [Part.stitch, Part.inOrder_eq (.refl _) (by simp [numbers]), List.head?_cons,
      Option.bind_some, rows?_numbers]
    dsimp only
    rw [List.foldlM_cons, first]
    change (Part.place 4 1 _ (numbers 2 [9.0]) >>= pure) >>= _ = _
    rw [second]
    rfl
  · intro same
    have equal := congrArg (fun x => Row.gene x 0 == 9.0) same
    revert equal
    decide +kernel

end Backend

end BoxSearch
