import BoxSearch.Proofs.Solver.Progress

/-!
Uniform rows that a filter accepts.

Every individual draws from its own stream until a row is accepted, and has a number of tries for
it. So a row is the first accepted one of its stream, whatever becomes of the other rows, and the
sample fails at the first individual all of whose tries are rejected.
-/

namespace BoxSearch

open Search

namespace Draw

variable {β : Type} {d : Draw β} {g : Random.Generator}

/-- The stream after `k` draws. -/
def after (d : Draw β) (g : Random.Generator) (k : Nat) : Random.Generator :=
  (fun g => (d.run g).2)^[k] g

/-- What the `k`-th of the draws that are made one after another gives. -/
def nth (d : Draw β) (g : Random.Generator) (k : Nat) : Except Error β :=
  (d.run (d.after g k)).1

theorem run_of_nth_zero {b : β} (h : d.nth g 0 = .ok b) : d.run g = (.ok b, (d.run g).2) :=
  Prod.ext h rfl

end Draw

/-- The lengths of the intervals are finite, and none of them is the negative zero. -/
def Bounds.Samplable (bounds : Bounds Float) : Prop :=
  ∀ x ∈ bounds.span, Scalar.isFinite x = true ∧ ¬Scalar.one / x < Scalar.zero

/-- The filter answers the verdict whatever happened before, and changes nothing. -/
def Call.Filters {σ : Type} (accepts : Row Float → Call σ Value) (verdict : Row Float → Value) :
    Prop :=
  ∀ x user, (accepts x).run user = (.ok (verdict x), user)

namespace Initial

variable {σ P : Type} {bounds : Bounds Float} {verdict : Row Float → Value}
  {accepts : Row Float → Call σ Value} {g : Random.Generator} {tries fuel i k : Nat}
  {s s' s'' : Run Float P × Session σ}

/-- The `k`-th row that is drawn from a stream is one that the filter rejects. -/
def Rejected (bounds : Bounds Float) (verdict : Row Float → Value) (g : Random.Generator)
    (k : Nat) : Prop :=
  ∃ x, (uniformRow bounds).nth g k = .ok x ∧ (verdict x).truthy = false

/-- The row is the first one drawn from a stream that the filter accepts, after `k` others. -/
structure FirstAccepted (bounds : Bounds Float) (verdict : Row Float → Value)
    (g : Random.Generator) (k : Nat) (x : Row Float) : Prop where
  rejected : ∀ m < k, Rejected bounds verdict g m
  drawn : (uniformRow bounds).nth g k = .ok x
  accepted : (verdict x).truthy = true

/-- A stream has one first accepted row. -/
theorem FirstAccepted.unique {k' : Nat} {x x' : Row Float}
    (h : FirstAccepted bounds verdict g k x) (h' : FirstAccepted bounds verdict g k' x') :
    k = k' ∧ x = x' := by
  have apart {m m' : Nat} {y y' : Row Float} (h : FirstAccepted bounds verdict g m y)
      (h' : FirstAccepted bounds verdict g m' y') : ¬m < m' := by
    intro earlier
    obtain ⟨z, drawn, rejected⟩ := h'.rejected m earlier
    obtain rfl : y = z := Except.ok.inj (h.drawn.symm.trans drawn)
    rw [h.accepted] at rejected
    cases rejected
  obtain rfl : k = k' := by
    have := apart h h'
    have := apart h' h
    omega
  exact ⟨rfl, Except.ok.inj (h.drawn.symm.trans h'.drawn)⟩

/-- Nothing but one stream has changed, which is left at `g`. -/
structure DrawnFrom (id : StreamId) (g : Random.Generator) (s s' : Run Float P × Session σ) :
    Prop where
  redrawn : Redrawn s.1 s'.1
  session : s'.2 = s.2
  own : s'.1.streams.get id = g
  others : ∀ other, other ≠ id → s'.1.streams.get other = s.1.streams.get other

/-- The state with one stream put at `g`. -/
def moved (s : Run Float P × Session σ) (id : StreamId) (g : Random.Generator) :
    Run Float P × Session σ :=
  ({ s.1 with streams := s.1.streams.set id g }, s.2)

theorem moved_drawnFrom (s : Run Float P × Session σ) (id : StreamId) (g : Random.Generator) :
    DrawnFrom id g s (moved s id g) where
  redrawn := ⟨_, rfl⟩
  session := rfl
  own := by simp [moved]
  others := by
    intro other different
    simp [moved, Ne.symm different]

theorem DrawnFrom.trans {id : StreamId} {g' : Random.Generator} (h : DrawnFrom id g s s')
    (h' : DrawnFrom id g' s' s'') : DrawnFrom id g' s s'' where
  redrawn := h.redrawn.trans h'.redrawn
  session := h'.session.trans h.session
  own := h'.own
  others := fun other different => (h'.others other different).trans (h.others other different)

/-- One try of an individual. -/
theorem run_firstAccepted_succ (filters : Call.Filters accepts verdict) (tries i fuel : Nat)
    {x : Row Float} {g : Random.Generator}
    (drawn : (uniformRow bounds).run (s.1.streams.get (.individual i)) = (.ok x, g)) :
    (firstAccepted bounds accepts tries i (fuel + 1)).run s =
      if (verdict x).truthy then (.ok x, moved s (.individual i) g)
      else (firstAccepted bounds accepts tries i fuel).run (moved s (.individual i) g) := by
  have row : s.1.streams.run (.individual i) (uniformRow bounds) =
      (.ok x, s.1.streams.set (.individual i) g) := by
    have drawn : uniformRow bounds (s.1.streams.get (.individual i)) = (.ok x, g) := drawn
    rw [Streams.run_eq, drawn]
  have asked (session : Session σ) :
      (Act.call (accepts x)).run session = (.ok (verdict x), session) := by
    have attempted : (Act.attempt (accepts x)).run session = (.ok (.ok (verdict x)), session) := by
      change (Except.ok ((accepts x).run session.user).1,
        { session with user := ((accepts x).run session.user).2 }) = _
      rw [filters]
    rw [Act.call, run_bind, attempted]
    rfl
  rw [firstAccepted, run_bind, run_draw, row]
  dsimp only
  rw [run_bind, run_act, asked]
  dsimp only
  split <;> rfl

/-- A draw that fails ends the tries. -/
theorem run_firstAccepted_fails (accepts : Row Float → Call σ Value) (tries i fuel : Nat)
    {e : Error} {g : Random.Generator}
    (failed : (uniformRow bounds).run (s.1.streams.get (.individual i)) = (.error e, g)) :
    (firstAccepted bounds accepts tries i (fuel + 1)).run s =
      (.error e, moved s (.individual i) g) := by
  have row : s.1.streams.run (.individual i) (uniformRow bounds) =
      (.error e, s.1.streams.set (.individual i) g) := by
    have failed : uniformRow bounds (s.1.streams.get (.individual i)) = (.error e, g) := failed
    rw [Streams.run_eq, failed]
  rw [firstAccepted, run_bind, run_draw, row]
  rfl

theorem FirstAccepted.tail {x : Row Float} (h : FirstAccepted bounds verdict g (k + 1) x) :
    FirstAccepted bounds verdict ((uniformRow bounds).run g).2 k x where
  rejected := fun m early => h.rejected (m + 1) (Nat.succ_lt_succ early)
  drawn := h.drawn
  accepted := h.accepted

/-- With tries enough, an individual gets the first row of its stream that the filter accepts, and
draws no further. -/
theorem run_firstAccepted_accepted (filters : Call.Filters accepts verdict) (tries i : Nat)
    {x : Row Float} (enough : k < fuel)
    (first : FirstAccepted bounds verdict (s.1.streams.get (.individual i)) k x) :
    ∃ s', (firstAccepted bounds accepts tries i fuel).run s = (.ok x, s') ∧
      DrawnFrom (.individual i)
        ((uniformRow bounds).after (s.1.streams.get (.individual i)) (k + 1)) s s' := by
  induction k generalizing s fuel with
  | zero =>
    obtain ⟨fuel, rfl⟩ := Nat.exists_eq_add_of_lt enough
    refine ⟨_, ?_, moved_drawnFrom s _ _⟩
    rw [run_firstAccepted_succ filters tries i _ (Draw.run_of_nth_zero first.drawn),
      if_pos first.accepted]
    rfl
  | succ k ih =>
    obtain ⟨rest, rfl⟩ : ∃ rest, fuel = rest + 1 := ⟨fuel - 1, by omega⟩
    obtain ⟨y, drawn, rejected⟩ := first.rejected 0 (Nat.succ_pos k)
    have next := moved_drawnFrom s (.individual i)
      ((uniformRow bounds).run (s.1.streams.get (.individual i))).2
    obtain ⟨s', run, left⟩ := ih (s := moved s (.individual i) _) (Nat.lt_of_succ_lt_succ enough)
      (next.own.symm ▸ first.tail)
    rw [next.own] at left
    refine ⟨s', ?_, next.trans left⟩
    rw [run_firstAccepted_succ filters tries i _ (Draw.run_of_nth_zero drawn),
      if_neg (by simp [rejected]), run]

/-- If all tries are rejected, the failure names the individual. -/
theorem run_firstAccepted_rejected (filters : Call.Filters accepts verdict) (tries i : Nat)
    (rejected : ∀ m < fuel, Rejected bounds verdict (s.1.streams.get (.individual i)) m) :
    ((firstAccepted bounds accepts tries i fuel).run s).1 =
      .error (.configuration (.filterExhausted tries i)) := by
  induction fuel generalizing s with
  | zero => rfl
  | succ fuel ih =>
    obtain ⟨y, drawn, refused⟩ := rejected 0 (Nat.succ_pos fuel)
    have next := moved_drawnFrom s (.individual i)
      ((uniformRow bounds).run (s.1.streams.get (.individual i))).2
    rw [run_firstAccepted_succ filters tries i _ (Draw.run_of_nth_zero drawn),
      if_neg (by simp [refused])]
    refine ih fun m early => ?_
    rw [next.own]
    exact rejected (m + 1) (Nat.succ_lt_succ early)

/-- Where rows can be drawn, each of a number of them is rejected, or one is the first accepted. -/
theorem rejected_or_firstAccepted (samplable : bounds.Samplable) (verdict : Row Float → Value)
    (g : Random.Generator) (tries : Nat) :
    (∀ m < tries, Rejected bounds verdict g m) ∨
      ∃ k < tries, ∃ x, FirstAccepted bounds verdict g k x := by
  induction tries with
  | zero => exact .inl fun m early => absurd early (Nat.not_lt_zero m)
  | succ tries ih =>
    rcases ih with rejected | ⟨k, early, x, first⟩
    · obtain ⟨x, g', run, -⟩ := Opening.yields_uniformRow (fun x hx => (samplable x hx).1)
        (fun x hx => (samplable x hx).2) ((uniformRow bounds).after g tries)
      have drawn : (uniformRow bounds).nth g tries = .ok x := congrArg Prod.fst run
      cases accepted : (verdict x).truthy with
      | true => exact .inr ⟨tries, Nat.lt_succ_self tries, x, rejected, drawn, accepted⟩
      | false =>
        refine .inl fun m early => ?_
        rcases Nat.lt_succ_iff_lt_or_eq.mp early with before | rfl
        · exact rejected m before
        · exact ⟨x, drawn, accepted⟩
    · exact .inr ⟨k, Nat.lt_succ_of_lt early, x, first⟩

/-- What a filtered sample of `n` rows leaves: every row is the first accepted one of its stream,
which is left right after it, and nothing else has changed. -/
structure Sifted (bounds : Bounds Float) (verdict : Row Float → Value) (tries n : Nat)
    (s s' : Run Float P × Session σ) (X : Rows Float) : Prop where
  redrawn : Redrawn s.1 s'.1
  session : s'.2 = s.2
  size : X.size = n
  rows : ∀ i < n, ∃ k < tries,
    FirstAccepted bounds verdict (s.1.streams.get (.individual i)) k (X.row i) ∧
      s'.1.streams.get (.individual i) =
        (uniformRow bounds).after (s.1.streams.get (.individual i)) (k + 1)
  others : ∀ id, (∀ i < n, id ≠ .individual i) → s'.1.streams.get id = s.1.streams.get id

theorem filteredRows_succ (bounds : Bounds Float) (accepts : Row Float → Call σ Value)
    (tries n : Nat) :
    (filteredRows bounds accepts tries (n + 1) : Search σ Float P (Rows Float)) = (do
      let X ← filteredRows bounds accepts tries n
      return X.push (← firstAccepted bounds accepts tries n tries)) := by
  rw [filteredRows, List.range_succ, List.foldlM_append]
  simp only [List.foldlM_cons, List.foldlM_nil, bind_pure]
  rfl

/-- If every individual has an accepted row within its tries, the sample consists of these. -/
theorem run_filteredRows_sifted (filters : Call.Filters accepts verdict) {n : Nat}
    (each : ∀ i < n, ∃ k < tries, ∃ x,
      FirstAccepted bounds verdict (s.1.streams.get (.individual i)) k x) :
    ∃ X s', (filteredRows bounds accepts tries n).run s = (.ok X, s') ∧
      Sifted bounds verdict tries n s s' X := by
  induction n with
  | zero =>
    exact ⟨#[], s, rfl, .refl _, rfl, rfl, fun i below => absurd below (Nat.not_lt_zero i),
      fun _ _ => rfl⟩
  | succ n ih =>
    obtain ⟨X, s₁, run, sifted⟩ := ih fun i below => each i (Nat.lt_succ_of_lt below)
    obtain ⟨k, enough, x, first⟩ := each n (Nat.lt_succ_self n)
    have own : s₁.1.streams.get (.individual n) = s.1.streams.get (.individual n) :=
      sifted.others _ fun i below same => Nat.ne_of_gt below (StreamId.individual.inj same)
    rw [← own] at first
    obtain ⟨s₂, run₂, left⟩ := run_firstAccepted_accepted filters tries n enough first
    refine ⟨X.push x, s₂, ?_, sifted.redrawn.trans left.redrawn,
      left.session.trans sifted.session, by simp [sifted.size], fun i below => ?_,
      fun id outside => ?_⟩
    · rw [filteredRows_succ, run_bind, run]
      dsimp only
      rw [run_bind, run₂]
      rfl
    · rcases Nat.lt_succ_iff_lt_or_eq.mp below with before | rfl
      · obtain ⟨m, within, kept, after⟩ := sifted.rows i before
        have row : Rows.row (X.push x) i = X.row i := by
          simp [Rows.row, Array.getElem?_push_lt, sifted.size, before]
        rw [row]
        refine ⟨m, within, kept, ?_⟩
        rw [left.others _ fun same => Nat.ne_of_lt before (StreamId.individual.inj same), after]
      · have row : Rows.row (X.push x) i = x := by
          simp [Rows.row, ← sifted.size]
        rw [row, ← own]
        exact ⟨k, enough, first, left.own⟩
    · rw [left.others id (outside n (Nat.lt_succ_self n)),
        sifted.others id fun i below => outside i (Nat.lt_succ_of_lt below)]

/-- A failure of one individual is the failure of the sample, if those before it have an accepted
row. -/
theorem run_filteredRows_fails (filters : Call.Filters accepts verdict) {n : Nat} {e : Error}
    (below : i < n)
    (before : ∀ j < i, ∃ k < tries, ∃ x,
      FirstAccepted bounds verdict (s.1.streams.get (.individual j)) k x)
    (fails : ∀ s' : Run Float P × Session σ,
      s'.1.streams.get (.individual i) = s.1.streams.get (.individual i) →
        ((firstAccepted bounds accepts tries i tries).run s').1 = .error e) :
    ((filteredRows bounds accepts tries n).run s).1 = .error e := by
  induction n with
  | zero => exact absurd below (Nat.not_lt_zero i)
  | succ n ih =>
    rw [filteredRows_succ, run_bind]
    rcases Nat.lt_succ_iff_lt_or_eq.mp below with earlier | rfl
    · have failed := ih earlier
      cases run : (filteredRows bounds accepts tries n).run s with
      | mk r s₁ =>
        rw [run] at failed
        obtain rfl : r = .error e := failed
        rfl
    · obtain ⟨X, s₁, run, sifted⟩ := run_filteredRows_sifted filters before
      have own := sifted.others (.individual i) fun j earlier same =>
        Nat.ne_of_gt earlier (StreamId.individual.inj same)
      have failed := fails s₁ own
      rw [run]
      dsimp only
      rw [run_bind]
      cases tried : (firstAccepted bounds accepts tries i tries).run s₁ with
      | mk r s₂ =>
        rw [tried] at failed
        obtain rfl : r = .error e := failed
        rfl

/-- From a box that is too wide no row can be drawn. -/
theorem uniformRow_overflows (wide : (bounds.span.any fun x => !Scalar.isFinite x) = true)
    (g : Random.Generator) : (uniformRow bounds).run g = (.error (.fault .overflow), g) := by
  simp only [uniformRow]
  rw [if_pos wide]
  rfl

/-- Where a box is too wide, or a length is the negative zero, no row can be drawn. -/
theorem uniformRow_fails (unsamplable : ¬bounds.Samplable) :
    ∃ e, (e = .fault .overflow ∨ e = .fault .value) ∧
      ∀ g, (uniformRow bounds).run g = (.error e, g) := by
  by_cases wide : (bounds.span.any fun x => !Scalar.isFinite x) = true
  · exact ⟨_, .inl rfl, uniformRow_overflows wide⟩
  · have signed : (bounds.span.any fun x => decide (Scalar.one / x < Scalar.zero)) = true := by
      by_contra unsigned
      refine unsamplable fun x hx => ⟨?_, fun negative => ?_⟩
      · by_contra infinite
        exact wide (Array.any_eq_true'.mpr ⟨x, hx, by simpa using infinite⟩)
      · exact unsigned (Array.any_eq_true'.mpr ⟨x, hx, by simpa using negative⟩)
    refine ⟨_, .inr rfl, fun g => ?_⟩
    simp only [uniformRow]
    rw [if_neg wide, if_pos signed]
    rfl

/-- A filter that accepts every row leaves nothing to repeat. -/
theorem firstAccepted_of_always (filters : Call.Filters accepts verdict)
    (always : ∀ x, (verdict x).truthy = true) (tries i fuel : Nat) :
    (firstAccepted bounds accepts tries i (fuel + 1) : Search σ Float P (Row Float)) =
      draw (.individual i) (uniformRow bounds) := by
  refine funext fun s => ?_
  change (firstAccepted bounds accepts tries i (fuel + 1)).run s =
    (draw (.individual i) (uniformRow bounds)).run s
  cases drawn : (uniformRow bounds).run (s.1.streams.get (.individual i)) with
  | mk r g =>
    have row : uniformRow bounds (s.1.streams.get (.individual i)) = (r, g) := drawn
    rw [run_draw, Streams.run_eq, row]
    cases r with
    | error e => exact run_firstAccepted_fails accepts tries i fuel drawn
    | ok x =>
      rw [run_firstAccepted_succ filters tries i fuel drawn, if_pos (always x)]
      rfl

theorem sample_of_always (filters : Call.Filters accepts verdict)
    (always : ∀ x, (verdict x).truthy = true) (some : 0 < tries) :
    (sample (.filtered accepts tries) : Search σ Float P (Tensor Float)) = sample .uniform := by
  obtain ⟨rest, rfl⟩ : ∃ rest, tries = rest + 1 := ⟨tries - 1, by omega⟩
  simp only [sample, filteredRows, perIndividual, drawEach, firstAccepted_of_always filters always]
  rfl

/-- All tries of an individual are rejected. -/
def Exhausted (bounds : Bounds Float) (verdict : Row Float → Value) (tries : Nat)
    (g : Random.Generator) : Prop :=
  ∀ k < tries, Rejected bounds verdict g k

/-- A row that is rejected has been drawn. -/
theorem Exhausted.samplable (h : Exhausted bounds verdict tries g) (some : 0 < tries) :
    bounds.Samplable := by
  by_contra unsamplable
  obtain ⟨e, -, fails⟩ := uniformRow_fails unsamplable
  obtain ⟨x, drawn, -⟩ := h 0 some
  have failed : (uniformRow bounds).nth g 0 = .error e := congrArg Prod.fst (fails g)
  cases failed.symm.trans drawn

theorem exists_firstAccepted (samplable : bounds.Samplable)
    (h : ¬Exhausted bounds verdict tries g) :
    ∃ k < tries, ∃ x, FirstAccepted bounds verdict g k x :=
  (rejected_or_firstAccepted samplable verdict g tries).resolve_left h

theorem run_sample_filtered {X : Rows Float}
    (run : (filteredRows s.1.bounds accepts tries s.1.popSize).run s = (.ok X, s')) :
    (sample (.filtered accepts tries)).run s = (.ok (.ofRows s.1.dim X), s') := by
  rw [sample, run_bind, run_current]
  dsimp only
  rw [run_bind, run]
  rfl

theorem sample_filtered_fails {e : Error}
    (failed : ((filteredRows s.1.bounds accepts tries s.1.popSize).run s).1 = .error e) :
    ((sample (.filtered accepts tries)).run s).1 = .error e := by
  rw [sample, run_bind, run_current]
  dsimp only
  rw [run_bind]
  cases run : (filteredRows s.1.bounds accepts tries s.1.popSize).run s with
  | mk r s' =>
    rw [run] at failed
    obtain rfl : r = .error e := failed
    rfl

/-- The sample of a box from which rows can be drawn, where nobody's tries are exhausted. -/
theorem sample_sifted (filters : Call.Filters accepts verdict) (samplable : s.1.bounds.Samplable)
    (each : ∀ i < s.1.popSize,
      ¬Exhausted s.1.bounds verdict tries (s.1.streams.get (.individual i))) :
    ∃ X s', (sample (.filtered accepts tries)).run s = (.ok (.ofRows s.1.dim X), s') ∧
      Sifted s.1.bounds verdict tries s.1.popSize s s' X := by
  obtain ⟨X, s', run, sifted⟩ := run_filteredRows_sifted filters fun i below =>
    exists_firstAccepted samplable (each i below)
  exact ⟨X, s', run_sample_filtered run, sifted⟩

/-- The sample where the tries of an individual are exhausted, and of nobody before it. -/
theorem sample_exhausted (filters : Call.Filters accepts verdict) (some : 0 < tries)
    (below : i < s.1.popSize)
    (exhausted : Exhausted s.1.bounds verdict tries (s.1.streams.get (.individual i)))
    (before : ∀ j < i, ¬Exhausted s.1.bounds verdict tries (s.1.streams.get (.individual j))) :
    ((sample (.filtered accepts tries)).run s).1 =
      .error (.configuration (.filterExhausted tries i)) := by
  refine sample_filtered_fails (run_filteredRows_fails filters below (fun j earlier => ?_)
    fun s' own => ?_)
  · exact exists_firstAccepted (exhausted.samplable some) (before j earlier)
  · exact run_firstAccepted_rejected filters tries i (own.symm ▸ exhausted)

/-- A sample of rows that cannot be drawn fails as the draw does, with any filter and without. -/
theorem sample_of_uniformRow_fails (filters : Call.Filters accepts verdict) (some : 0 < tries)
    (nonempty : 0 < s.1.popSize) {e : Error}
    (fails : ∀ g, (uniformRow s.1.bounds).run g = (.error e, g)) :
    ((sample (.filtered accepts tries)).run s).1 = .error e ∧
      ((sample .uniform : Search σ Float P (Tensor Float)).run s).1 = .error e := by
  obtain ⟨rest, rfl⟩ : ∃ rest, tries = rest + 1 := ⟨tries - 1, by omega⟩
  have failed {verdict : Row Float → Value} {accepts : Row Float → Call σ Value}
      (filters : Call.Filters accepts verdict) :
      ((sample (.filtered accepts (rest + 1))).run s).1 = .error e := by
    refine sample_filtered_fails (run_filteredRows_fails filters nonempty (fun j earlier => ?_)
      fun s' _ => ?_)
    · exact absurd earlier (Nat.not_lt_zero j)
    · rw [run_firstAccepted_fails accepts (rest + 1) 0 rest (fails _)]
  refine ⟨failed filters, ?_⟩
  have accepting : Call.Filters (fun _ => pure (.bool true) : Row Float → Call σ Value)
      fun _ => .bool true := fun _ _ => rfl
  rw [← sample_of_always accepting (fun _ => rfl) some]
  exact failed accepting

/-- The sample of a box from which no row can be drawn. -/
theorem sample_unsamplable (filters : Call.Filters accepts verdict) (some : 0 < tries)
    (unsamplable : ¬s.1.bounds.Samplable) (nonempty : 0 < s.1.popSize) :
    ∃ e, (e = .fault .overflow ∨ e = .fault .value) ∧
      ((sample (.filtered accepts tries)).run s).1 = .error e ∧
      ((sample .uniform : Search σ Float P (Tensor Float)).run s).1 = .error e := by
  obtain ⟨e, kind, fails⟩ := uniformRow_fails unsamplable
  exact ⟨e, kind, sample_of_uniformRow_fails filters some nonempty fails⟩

/-- If somebody's tries are exhausted, the sample fails and names the first of those individuals. -/
theorem exists_first_exhausted (filters : Call.Filters accepts verdict) (some : 0 < tries)
    (h : ∃ i < s.1.popSize,
      Exhausted s.1.bounds verdict tries (s.1.streams.get (.individual i))) :
    ∃ i < s.1.popSize,
      Exhausted s.1.bounds verdict tries (s.1.streams.get (.individual i)) ∧
      (∀ j < i, ¬Exhausted s.1.bounds verdict tries (s.1.streams.get (.individual j))) ∧
      ((sample (.filtered accepts tries)).run s).1 =
        .error (.configuration (.filterExhausted tries i)) := by
  classical
  obtain ⟨below, here⟩ := Nat.find_spec h
  have before : ∀ j < Nat.find h,
      ¬Exhausted s.1.bounds verdict tries (s.1.streams.get (.individual j)) :=
    fun j earlier there => Nat.find_min h earlier ⟨earlier.trans below, there⟩
  exact ⟨_, below, here, before, sample_exhausted filters some below here before⟩

/-- The filter is to blame only if somebody's tries are exhausted. -/
theorem exists_exhausted_of_fails (filters : Call.Filters accepts verdict) (some : 0 < tries)
    {failure : ConfigurationIssue}
    (failed : ((sample (.filtered accepts tries)).run s).1 = .error (.configuration failure)) :
    ∃ i < s.1.popSize,
      Exhausted s.1.bounds verdict tries (s.1.streams.get (.individual i)) := by
  by_contra none
  have each : ∀ i < s.1.popSize,
      ¬Exhausted s.1.bounds verdict tries (s.1.streams.get (.individual i)) :=
    fun i below here => none ⟨i, below, here⟩
  have succeeded {X : Rows Float} {s' : Run Float P × Session σ}
      (run : (sample (.filtered accepts tries)).run s = (.ok (.ofRows s.1.dim X), s')) : False := by
    rw [run] at failed
    cases failed
  by_cases samplable : s.1.bounds.Samplable
  · obtain ⟨X, s', run, -⟩ := sample_sifted filters samplable each
    exact succeeded run
  · rcases Nat.eq_zero_or_pos s.1.popSize with empty | nonempty
    · have rows : (filteredRows s.1.bounds accepts tries s.1.popSize).run s = (.ok #[], s) := by
        rw [empty]
        rfl
      exact succeeded (run_sample_filtered rows)
    · obtain ⟨e, rfl | rfl, failed', -⟩ := sample_unsamplable filters some samplable nonempty
      · cases failed.symm.trans failed'
      · cases failed.symm.trans failed'

/-- In a smaller population the rows are the same, as far as they go. -/
theorem Sifted.extract {m n : Nat} {t t' : Run Float P × Session σ} {X Y : Rows Float}
    (h : Sifted bounds verdict tries n s s' X) (h' : Sifted bounds verdict tries m t t' Y)
    (fewer : m ≤ n)
    (same : ∀ i < m, t.1.streams.get (.individual i) = s.1.streams.get (.individual i)) :
    Y = X.extract 0 m ∧
      ∀ i < m, t'.1.streams.get (.individual i) = s'.1.streams.get (.individual i) := by
  have agree : ∀ i < m, Y.row i = X.row i ∧
      t'.1.streams.get (.individual i) = s'.1.streams.get (.individual i) := by
    intro i below
    obtain ⟨k, -, first, after⟩ := h.rows i (below.trans_le fewer)
    obtain ⟨k', -, first', after'⟩ := h'.rows i below
    rw [same i below] at first' after'
    obtain ⟨rfl, row⟩ := first.unique first'
    exact ⟨row.symm, after'.trans after.symm⟩
  refine ⟨?_, fun i below => (agree i below).2⟩
  apply Array.ext
  · simp [h.size, h'.size, fewer]
  · intro i hi hi'
    have row := (agree i (hi.trans_eq h'.size)).1
    have inside : i < X.size := by have := hi.trans_eq h'.size; have := h.size; omega
    simpa [Rows.row, hi, inside] using row

/-- The first sample of a run with a filter. It fails because of the filter if and only if the tries
of some individual are exhausted, and names the first of these. Otherwise every row is the first
accepted one of its own stream, if rows can be drawn from the box at all; so they are the same in a
smaller population. If no row can be drawn, a uniform sample fails in the same way, and if the
filter accepts every row, the sample is a uniform one. -/
theorem filtered_first_accepted (filters : Call.Filters accepts verdict) (some : 0 < tries)
    (bounds : Bounds Float) (n : Nat) (nObj : Option Int) (limit : Value) (seed : Nat)
    (session : Session σ) :
    let start (n : Nat) : Run Float P × Session σ := (.start bounds n nObj limit seed, session)
    let sampled (n : Nat) := (sample (.filtered accepts tries)).run (start n)
    let exhausted (i : Nat) := Exhausted bounds verdict tries (.seeded seed i)
    (∀ i, (start n).1.streams.get (.individual i) = .seeded seed i) ∧
    ((∃ failure, (sampled n).1 = .error (.configuration failure)) ↔ ∃ i < n, exhausted i) ∧
    (∀ i, (sampled n).1 = .error (.configuration (.filterExhausted tries i)) ↔
      i < n ∧ exhausted i ∧ ∀ j < i, ¬exhausted j) ∧
    (bounds.Samplable → (∀ i < n, ¬exhausted i) → ∃ X, (sampled n).1 = .ok (.ofRows bounds.dim X) ∧
      Sifted bounds verdict tries n (start n) (sampled n).2 X ∧
      ∀ m ≤ n, (sampled m).1 = .ok (.ofRows bounds.dim (X.extract 0 m)) ∧ ∀ i < m,
        (sampled m).2.1.streams.get (.individual i) =
          (sampled n).2.1.streams.get (.individual i)) ∧
    (¬bounds.Samplable → 0 < n → ∃ e, (e = .fault .overflow ∨ e = .fault .value) ∧
      (sampled n).1 = .error e ∧ ((sample .uniform).run (start n)).1 = .error e) ∧
    ((∀ x, (verdict x).truthy = true) → sampled n = (sample .uniform).run (start n)) := by
  intro start sampled exhausted
  have stream (n i : Nat) : (start n).1.streams.get (.individual i) = .seeded seed i := by
    simp [start, Run.start, Streams.start, Streams.get]
  have here (n i : Nat) : Exhausted (start n).1.bounds verdict tries
      ((start n).1.streams.get (.individual i)) ↔ exhausted i := by
    rw [stream n i]
    exact Iff.rfl
  have first (h : ∃ i < n, exhausted i) : ∃ i < n, exhausted i ∧ (∀ j < i, ¬exhausted j) ∧
      (sampled n).1 = .error (.configuration (.filterExhausted tries i)) := by
    have found := exists_first_exhausted (s := start n) filters some
    simp only [here] at found
    exact found h
  have because {failure : ConfigurationIssue}
      (failed : (sampled n).1 = .error (.configuration failure)) : ∃ i < n, exhausted i := by
    have found := exists_exhausted_of_fails (s := start n) filters some failed
    simp only [here] at found
    exact found
  have succeeds (samplable : bounds.Samplable) (n : Nat) (each : ∀ i < n, ¬exhausted i) :
      ∃ X s', sampled n = (.ok (.ofRows bounds.dim X), s') ∧
        Sifted bounds verdict tries n (start n) s' X :=
    sample_sifted (s := start n) filters samplable fun i below => (here n i).not.mpr (each i below)
  refine ⟨stream n, ⟨?_, fun h => ?_⟩, fun i => ⟨?_, ?_⟩, fun samplable each => ?_,
    sample_unsamplable (s := start n) filters some, fun always => ?_⟩
  · rintro ⟨failure, failed⟩
    exact because failed
  · obtain ⟨i, -, -, -, failed⟩ := first h
    exact ⟨_, failed⟩
  · intro failed
    obtain ⟨j, below, exhausted, before, failed'⟩ := first (because failed)
    have same := Except.error.inj (failed.symm.trans failed')
    obtain ⟨-, rfl⟩ := ConfigurationIssue.filterExhausted.inj (Error.configuration.inj same)
    exact ⟨below, exhausted, before⟩
  · rintro ⟨below, exhausted, before⟩
    exact sample_exhausted (s := start n) filters some below ((here n i).mpr exhausted)
      fun j earlier => (here n j).not.mpr (before j earlier)
  · obtain ⟨X, s', run, sifted⟩ := succeeds samplable n each
    refine ⟨X, congrArg Prod.fst run, (congrArg Prod.snd run).symm ▸ sifted, fun m fewer => ?_⟩
    obtain ⟨Y, t', run', sifted'⟩ :=
      succeeds samplable m fun i below => each i (below.trans_le fewer)
    obtain ⟨rfl, streams⟩ := sifted.extract sifted' fewer fun i _ =>
      (stream m i).trans (stream n i).symm
    rw [run, run']
    exact ⟨rfl, streams⟩
  · simp only [sampled, sample_of_always filters always some]

theorem unitInterval_samplable : Bounds.unitInterval.Samplable := by
  unfold Bounds.Samplable
  decide +kernel

/-- A filter that accepts nothing fails at the first individual. -/
theorem filtered_first_accepted_closed :
    ((sample (.filtered (fun _ => pure (.bool false)) 3) : Search Unit Float Unit _).run
      (.start Bounds.unitInterval 2 none .absent 7, ⟨(), #[]⟩)).1 =
        .error (.configuration (.filterExhausted 3 0)) := by
  have filters : Call.Filters (σ := Unit) (fun _ => pure (.bool false)) fun _ => .bool false :=
    fun _ _ => rfl
  have exhausted : Exhausted Bounds.unitInterval (fun _ => .bool false) 3 (.seeded 7 0) := by
    rcases rejected_or_firstAccepted unitInterval_samplable (fun _ => .bool false)
      (.seeded 7 0) 3 with rejected | ⟨k, -, x, first⟩
    · exact rejected
    · cases first.accepted
  have some : 0 < 3 := by decide
  have sampled := filtered_first_accepted (P := Unit) filters some Bounds.unitInterval 2 none
    .absent 7 ⟨(), #[]⟩
  exact (sampled.2.2.1 0).mpr
    ⟨by decide, exhausted, fun j earlier => absurd earlier (Nat.not_lt_zero j)⟩

/-- An interval whose length is beyond the largest number. -/
def wide : Bounds Float :=
  ⟨#[-1e308], #[1e308], by simp, by simp, by decide +kernel, by decide +kernel⟩

theorem wide_unsamplable : (wide.span.any fun x => !Scalar.isFinite x) = true := by
  decide +kernel

/-- No row can be drawn from the interval. So nobody's tries are exhausted, and yet there is no
first accepted row, whatever the filter is. -/
theorem filtered_wide_overflows :
    (∀ i < 2, ¬Exhausted wide (fun _ => .bool true) 3 (.seeded 0 i)) ∧
      ((sample (.filtered (fun _ => pure (.bool true)) 3) : Search Unit Float Unit _).run
        (.start wide 2 none .absent 0, ⟨(), #[]⟩)).1 = .error (.fault .overflow) := by
  constructor
  · intro i _ exhausted
    obtain ⟨x, drawn, -⟩ := exhausted 0 (by decide)
    cases (congrArg Prod.fst (uniformRow_overflows wide_unsamplable _)).symm.trans drawn
  · have filters : Call.Filters (σ := Unit) (fun _ => pure (.bool true)) fun _ => .bool true :=
      fun _ _ => rfl
    let start : Run Float Unit × Session Unit := (.start wide 2 none .absent 0, ⟨(), #[]⟩)
    have some : 0 < 3 := by decide
    have nonempty : 0 < start.1.popSize := Nat.two_pos
    have fails (g : Random.Generator) :
        (uniformRow start.1.bounds).run g = (.error (.fault .overflow), g) :=
      uniformRow_overflows wide_unsamplable g
    exact (sample_of_uniformRow_fails filters some nonempty fails).1

end Initial

end BoxSearch
