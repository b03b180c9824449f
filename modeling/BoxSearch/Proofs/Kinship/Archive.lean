import BoxSearch.Proofs.Archive.Crowding
import BoxSearch.Proofs.Kinship.Rows
import BoxSearch.Proofs.Run.Alongside

/-!
Archives of kin points.

Points with kin parameters and kin fitness enter and leave an archive alike, so that archives stay
kin: they hold kin points in the same places, and what they answer is kin.
-/

namespace BoxSearch

variable {R S : Float → Float → Prop} {P : Type}

namespace Crowding

theorem precedes_eq {a a' b b' : Float} (ha : Akin a a') (hb : Akin b b') :
    precedes a b = precedes a' b' := by
  simp only [precedes, ha.lt_iff hb, ha.isNaN_eq, hb.isNaN_eq]

variable {values values' d d' : Array Float}

theorem ranking_eq (h : Related Akin values values') : ranking values = ranking values' := by
  have entry (i : Nat) : Akin (values.getD i Scalar.zero) (values'.getD i Scalar.zero) := h.gene i
  simp only [ranking, h.size_eq, precedes_eq (entry _) (entry _)]

/-- Akin gaps at the same places. -/
def GapsAkin (gap gap' : Nat × Float) : Prop :=
  gap.1 = gap'.1 ∧ Akin gap.2 gap'.2

theorem gaps_akin (h : Related Akin values values') (span : Float) (order : List Nat) :
    List.Forall₂ GapsAkin (gaps values span order) (gaps values' span order) := by
  fun_induction gaps values span order with
  | case1 before here after rest ih =>
    rw [gaps]
    exact .cons ⟨rfl, Kinship.div _ (Kinship.sub (h.gene after) (h.gene before))⟩ ih
  | case2 order short =>
    rw [gaps]
    · exact .nil
    · exact short

/-- A number that is finite and not at most zero is above zero. -/
theorem positive_of_spread {a : Float} (finite : Scalar.isFinite a = true)
    (spread : ¬a ≤ Scalar.zero) : Scalar.zero < a := by
  rw [Scalar.isFinite, Bool.and_eq_true, decide_eq_true_eq, decide_eq_true_eq] at finite
  have number := (OrderedScalar.le_self_of_le (Scalar.le_of_lt finite.2)).1
  exact (Scalar.lt_or_le SignedScalar.zero_le_zero number).resolve_right spread

theorem addObjective_akin (hd : Related Akin d d') (h : Related Akin values values') :
    Related Akin (addObjective d values) (addObjective d' values') := by
  unfold addObjective
  rw [ranking_eq h]
  cases ranking values' with
  | nil => exact hd
  | cons first rest =>
    have ends := (hd.setIfInBounds first (.refl Scalar.infinity)).setIfInBounds
      (rest.getLastD first) (.refl Scalar.infinity)
    have spans : Akin
        (values.getD (rest.getLastD first) Scalar.zero - values.getD first Scalar.zero)
        (values'.getD (rest.getLastD first) Scalar.zero - values'.getD first Scalar.zero) :=
      Kinship.sub (h.gene (rest.getLastD first)) (h.gene first)
    simp only [spans.isFinite_eq, spans.le_iff (.refl Scalar.zero)]
    split
    case isTrue => exact ends
    case isFalse spread =>
      simp only [Bool.or_eq_true, Bool.not_eq_true', Bool.not_eq_false, decide_eq_true_eq,
        not_or] at spread
      -- the range is positive, so that it is the same on both sides
      have positive := positive_of_spread spread.1 spread.2
      rw [spans.eq_of_pos (((Akin.refl _).lt_iff spans).mpr positive)]
      refine List.rel_foldl (P := Related Akin) (R := GapsAkin) ?_ ends (gaps_akin h _ _)
      rintro c c' distances ⟨i, gap⟩ ⟨_, gap'⟩ ⟨rfl, gaps⟩
      exact distances.modify i fun _ _ entry => Kinship.add entry gaps

theorem distances_akin [Kinship S] {F F' : Rows Float} (h : Rows.Kin S F F') (width : Nat) :
    Related Akin (distances width F) (distances width F') := by
  have constant (c : Float) : Related Akin (F.map fun _ => c) (F'.map fun _ => c) :=
    h.map fun _ _ _ => .refl c
  rw [distances, distances, h.size_eq]
  split
  · exact constant _
  · exact related_foldl (fun _ _ j d => addObjective_akin d (h.column j).akin) _ (constant _)

end Crowding

/-- Points with kin parameters, kin fitness and the same payload. -/
structure Member.Kin (R S : Float → Float → Prop) (m m' : Member Float P) : Prop where
  x : Related R m.x m'.x
  f : Related S m.f m'.f
  product : m.product = m'.product

/-- Fronts with kin members in the same order. -/
structure Front.Kin (R S : Float → Float → Prop) (s s' : Front Float P) : Prop where
  nVar : s.nVar = s'.nVar
  nObj : s.nObj = s'.nObj
  limit : s.limit = s'.limit
  members : Related (Member.Kin R S) s.members s'.members
  crowding : Option.Rel (Related Akin) s.crowding s'.crowding

namespace Front.Kin

variable {s s' : Front Float P}

theorem X (h : s.Kin R S s') : Rows.Kin R s.X s'.X :=
  h.members.map fun _ _ m => m.x

theorem F (h : s.Kin R S s') : Rows.Kin S s.F s'.F :=
  h.members.map fun _ _ m => m.f

theorem products (h : s.Kin R S s') : s.products = s'.products :=
  (h.members.map (T := Eq) fun _ _ m => m.product).eq

theorem size (h : s.Kin R S s') : s.size = s'.size :=
  h.members.size_eq

variable [Kinship S]

theorem distances (h : s.Kin R S s') : Related Akin s.distances s'.distances := by
  have known := h.crowding
  rw [Front.distances, Front.distances]
  generalize s.crowding = c at known
  generalize s'.crowding = c' at known
  cases known with
  | some related => exact related
  | none =>
    rw [h.nObj]
    exact Crowding.distances_akin h.F _

theorem measured (h : s.Kin R S s') : s.measured.Kin R S s'.measured :=
  ⟨h.nVar, h.nObj, h.limit, h.members, .some h.distances⟩

theorem mostCrowded?_eq (h : s.Kin R S s') : s.mostCrowded? = s'.mostCrowded? := by
  have d := h.distances
  have entry (i : Nat) :
      Akin (s.distances.getD i Scalar.zero) (s'.distances.getD i Scalar.zero) := d.gene i
  simp only [mostCrowded?, Scalar.argMin?_congr d, d.size_eq]
  cases Scalar.argMin? s'.distances with
  | none => rfl
  | some i => simp only [Option.map_some, (entry _).beq_eq (entry i)]

theorem truncate (h : s.Kin R S s') :
    s.truncate.1.Kin R S s'.truncate.1 ∧ s.truncate.2 = s'.truncate.2 := by
  rw [Front.truncate, Front.truncate, h.limit, h.size, h.mostCrowded?_eq]
  cases s'.limit with
  | none => exact ⟨h, rfl⟩
  | some limit =>
    dsimp only
    split
    · cases s'.mostCrowded? with
      | none => exact ⟨h, rfl⟩
      | some i =>
        exact ⟨⟨h.nVar, h.nObj, rfl, h.members.eraseIdxIfInBounds i, .none⟩, rfl⟩
    · exact ⟨h, rfl⟩

theorem representative (h : s.Kin R S s') :
    Matched (Member.Kin R S) s.representative s'.representative := by
  have sums : s.F.map Scalar.total = s'.F.map Scalar.total :=
    (h.F.map (T := Eq) fun _ _ row => Scalar.total_eq row).eq
  rw [Front.representative, Front.representative, sums]
  cases Scalar.argMin? (s'.F.map Scalar.total) with
  | none => exact .error _
  | some i =>
    have found := h.members.getElem?_rel i
    simp only [Option.bind_some]
    generalize s.members[i]? = m at found
    generalize s'.members[i]? = m' at found
    cases found with
    | some related => exact .ok related
    | none => exact .error _

theorem lessCrowded_eq (h : s.Kin R S s') (i j : Nat) : s.lessCrowded i j = s'.lessCrowded i j := by
  have entry (i : Nat) :
      Akin (s.distances.getD i Scalar.zero) (s'.distances.getD i Scalar.zero) := h.distances.gene i
  simp only [lessCrowded, (entry i).lt_iff (entry j)]

open Draw

omit [Kinship S] in
/-- A random member of kin fronts. -/
theorem sample (h : s.Kin R S s') :
    Alongside Eq (fun p p' => Related R p.1 p'.1 ∧ Related S p.2 p'.2)
      (s.sample : Draw (Row Float × Row Float)) s'.sample := by
  apply alongside_guard (by rw [h.members.isEmpty_eq])
  rw [h.size]
  apply alongside_bind (alongside_self _)
  rintro i _ rfl
  exact alongside_pure ⟨h.X.row i, h.F.row i⟩

theorem tournament (h : s.Kin R S s') :
    Alongside Eq (Related R) (s.tournament : Draw (Row Float)) s'.tournament := by
  apply alongside_guard (by rw [h.members.isEmpty_eq])
  rw [h.size]
  apply alongside_bind (alongside_self _)
  rintro i _ rfl
  apply alongside_bind (alongside_self _)
  rintro j _ rfl
  rw [h.lessCrowded_eq]
  exact alongside_pure (h.X.row _)

variable [Kinship R]

theorem bars_eq {m m' : Member Float P} {x x' f f' : Row Float} (h : m.Kin R S m')
    (hx : Related R x x') (hf : Related S f f') : bars m x f = bars m' x' f' := by
  rw [bars, bars, Dominance.dominates_eq h.f hf, Row.same_eq h.f hf, Row.same_eq h.x hx]

/-- What came of two offers is the same, and the fronts are kin. -/
structure OfferedKin (R S : Float → Float → Prop) (o o' : Offered Float P) : Prop where
  front : o.front.Kin R S o'.front
  entered : o.entered = o'.entered
  dropped : o.dropped = o'.dropped

theorem offer (h : s.Kin R S s') {x x' f f' : Row Float} (hx : Related R x x')
    (hf : Related S f f') (product : Option P) :
    OfferedKin R S (s.offer x f product) (s'.offer x' f' product) := by
  have barred : s.members.any (bars · x f) = s'.members.any (bars · x' f') :=
    h.members.any_eq fun _ _ m => bars_eq m hx hf
  rw [Front.offer, Front.offer, barred]
  split
  · exact ⟨h, rfl, rfl⟩
  · have kept := h.members.filter (p := fun m => !Dominance.dominates f m.f)
      (q := fun m => !Dominance.dominates f' m.f)
      fun _ _ m => by rw [Dominance.dominates_eq hf m.f]
    have grown : Front.Kin R S { s with
        members := (s.members.filter fun m => !Dominance.dominates f m.f).push ⟨x, f, product⟩
        crowding := none } { s' with
        members := (s'.members.filter fun m => !Dominance.dominates f' m.f).push ⟨x', f', product⟩
        crowding := none } :=
      ⟨h.nVar, h.nObj, h.limit, kept.push ⟨hx, hf, rfl⟩, .none⟩
    obtain ⟨front, dropped⟩ := grown.truncate
    exact ⟨front, rfl, dropped⟩

/-- Points that are offered alike. -/
structure PointsKin (R S : Float → Float → Prop) (p p' : Row Float × Row Float × Option P) :
    Prop where
  x : Related R p.1 p'.1
  f : Related S p.2.1 p'.2.1
  product : p.2.2 = p'.2.2

/-- What came of several offers is the same, and the fronts are kin. -/
structure TallyKin (R S : Float → Float → Prop) (t t' : Tally Float P) : Prop where
  front : t.front.Kin R S t'.front
  dropped : t.dropped = t'.dropped

theorem offerAll (h : s.Kin R S s') {points points' : List (Row Float × Row Float × Option P)}
    (offered : List.Forall₂ (PointsKin R S) points points') :
    TallyKin R S (s.offerAll points) (s'.offerAll points') := by
  refine List.rel_foldl (P := TallyKin R S) (R := PointsKin R S) ?_
    (show TallyKin R S ⟨s, 0, []⟩ ⟨s', 0, []⟩ from ⟨h, rfl⟩) offered
  rintro t t' tally ⟨x, f, product⟩ ⟨x', f', _⟩ ⟨hx, hf, rfl⟩
  have outcome := tally.front.offer hx hf product
  exact ⟨outcome.front, by simp only [Tally.offer, tally.dropped, outcome.dropped]⟩

end Front.Kin

/-- Batches of kin points. -/
structure Batch.Kin (R S : Float → Float → Prop) (b b' : Batch Float P) : Prop where
  X : Rows.Kin R b.X b'.X
  F : Rows.Kin S b.F b'.F
  products : b.products = b'.products

/-- Incumbents at kin points. -/
structure Incumbent.Kin (R S : Float → Float → Prop) (s s' : Incumbent Float P) : Prop where
  point : Option.Rel (Related R) s.point s'.point
  fitness : S s.fitness s'.fitness
  product : s.product = s'.product

theorem Incumbent.Kin.offerBatch [Kinship S] {s s' : Incumbent Float P} (h : s.Kin R S s')
    {b b' : Batch Float P}
    (batch : b.Kin R S b') :
    (s.offerBatch b.X b.F b.product).2.Kin R S (s'.offerBatch b'.X b'.F b'.product).2 := by
  have product : b.product = b'.product := by
    funext i
    rw [Batch.product, Batch.product, batch.products]
  have column : Related S (b.F.column 0) (b'.F.column 0) := batch.F.column 0
  have found : s.point.isNone = s'.point.isNone := by
    rw [← Option.not_isSome, ← Option.not_isSome, isSome_eq_of_rel h.point]
  rw [Incumbent.offerBatch, Incumbent.offerBatch, Scalar.argMin?_congr column, product]
  cases Scalar.argMin? (b'.F.column 0) with
  | none => exact h
  | some i =>
    have best := (batch.F.row i).gene 0
    simp only [Incumbent.offer, found, (Kinship.akin best).lt_iff (Kinship.akin h.fitness)]
    split
    · exact ⟨.some (batch.X.row i), best, rfl⟩
    · exact h

/-- Trackers of one kind that hold kin points. -/
inductive Tracker.Kin (R S : Float → Float → Prop) : Tracker Float P → Tracker Float P → Prop
  | single {s s' : Incumbent Float P} (kin : s.Kin R S s') : Kin R S (.single s) (.single s')
  | several {s s' : Front Float P} (kin : s.Kin R S s') : Kin R S (.several s) (.several s')

namespace Tracker.Kin

variable {t t' : Tracker Float P}

theorem refl_start [Kinship S] (dim width : Nat) (limit : Value) :
    Matched (Tracker.Kin R S) (Tracker.start dim width limit : Except Error (Tracker Float P))
      (Tracker.start dim width limit) := by
  rw [Tracker.start]
  split
  · exact .ok (.single ⟨.none, Kinship.refl _, rfl⟩)
  · refine (Matched.refl (fun _ => rfl) (Front.limitOf limit)).map (Q := Eq) fun l l' same => ?_
    rw [same]
    exact .several ⟨rfl, rfl, rfl, .nil, .none⟩

theorem front? (h : t.Kin R S t') : Option.Rel (Front.Kin R S) t.front? t'.front? := by
  cases h with
  | single => exact .none
  | several kin => exact .some kin

theorem fold [Kinship R] [Kinship S] (h : t.Kin R S t') {b b' : Batch Float P}
    (batch : b.Kin R S b') :
    (t.fold b).1.Kin R S (t'.fold b').1 ∧ (t.fold b).2 = (t'.fold b').2 := by
  cases h with
  | single kin => exact ⟨.single (kin.offerBatch batch), rfl⟩
  | several kin =>
    have points : List.Forall₂ (Front.Kin.PointsKin R S) b.points b'.points := by
      rw [Batch.points, Batch.points, ← batch.X.size_eq, List.forall₂_map_left_iff,
        List.forall₂_map_right_iff, List.forall₂_same]
      intro i _
      exact ⟨batch.X.row i, batch.F.row i, by rw [Batch.product, Batch.product, batch.products]⟩
    have tally := kin.offerAll points
    exact ⟨.several tally.front, by rw [Tracker.fold, Tracker.fold, tally.dropped, kin.limit]⟩

end Tracker.Kin

end BoxSearch
