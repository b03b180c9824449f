import BoxSearch.Proofs.Draw
import Mathlib.Tactic.Choose

/-!
Rounds in which individuals are visited one after another.

On a visit an individual reads the run as it finds it, draws from its own stream, may leave
something in the run, and builds a candidate. If nobody reads what another individual leaves, the
order of the visits does not show: neither in the candidates nor in the run nor in any stream. A
round that fails does so in the same way in every order, as long as a failure has nothing to do with
what is drawn.
-/

namespace BoxSearch

namespace Draw

variable {β γ : Type} {verdict later : Except Error Unit} {d : Draw β}

/-- Whether the draw fails, and with what, has nothing to do with the stream. -/
def Settles (d : Draw β) (verdict : Except Error Unit) : Prop :=
  ∀ g, (d.run g).1.map (fun _ => ()) = verdict

theorem settles_of_succeeds (h : d.Succeeds) : d.Settles (.ok ()) := by
  intro g
  obtain ⟨b, g', drawn, -⟩ := h g
  have here : d.run g = (.ok b, g') := drawn
  rw [here]
  rfl

theorem Settles.succeeds (h : d.Settles (.ok ())) : d.Succeeds := by
  intro g
  have settled := h g
  cases drawn : d.run g with
  | mk r g' =>
    rw [drawn] at settled
    cases r with
    | error e => cases settled
    | ok b => exact ⟨b, g', drawn, trivial⟩

theorem Settles.fails {e : Error} (h : d.Settles (.error e)) (g : Random.Generator) :
    (d.run g).1 = .error e := by
  have settled := h g
  cases drawn : (d.run g).1 with
  | error e' =>
    rw [drawn] at settled
    cases settled
    rfl
  | ok b =>
    rw [drawn] at settled
    cases settled

theorem settles_pure (b : β) : (pure b : Draw β).Settles (.ok ()) :=
  fun _ => rfl

theorem settles_throw (e : Error) : (throw e : Draw β).Settles (.error e) :=
  fun _ => rfl

theorem settles_ofExcept (r : Except Error β) :
    (MonadExcept.ofExcept r : Draw β).Settles (r.map fun _ => ()) := by
  intro g
  cases r <;> rfl

theorem settles_bind {f : β → Draw γ} (first : d.Settles verdict)
    (next : ∀ b, (f b).Settles later) : (d >>= f).Settles (verdict >>= fun _ => later) := by
  intro g
  rw [run_bind]
  have settled := first g
  cases drawn : d.run g with
  | mk r g' =>
    rw [drawn] at settled
    cases r with
    | error e =>
      obtain rfl : verdict = .error e := settled.symm
      rfl
    | ok b =>
      obtain rfl : verdict = .ok () := settled.symm
      exact next b g'

/-- An index fails for its range only. -/
theorem settles_index (n : Int) : ∃ verdict, (index n).Settles verdict := by
  unfold index
  split
  · exact ⟨_, settles_throw _⟩
  · split
    · exact ⟨_, settles_throw _⟩
    · exact ⟨_, settles_of_succeeds (succeeds_lift _)⟩

/-- Whoever of `n` individuals it is that chooses among the others, there are as many of these. -/
theorem settles_distinct (n : Nat) (k : Int) :
    ∃ verdict, ∀ i < n, (distinct n k (some (i : Int))).Settles verdict := by
  have hole (i : Nat) (inside : i < n) : gap? n (some (i : Int)) = some i := by
    rw [gap?, if_pos (by omega)]
    rfl
  by_cases few : (n : Int) - 1 < k
  · refine ⟨.error (.misuse (.poolTooSmall k (n - 1))), fun i inside => ?_⟩
    simp only [distinct, hole i inside, Option.isSome_some, if_true, if_pos few]
    exact settles_throw _
  · by_cases negative : k < 0
    · refine ⟨.error (.fault .value), fun i inside => ?_⟩
      simp only [distinct, hole i inside, Option.isSome_some, if_true, if_neg few, if_pos negative]
      exact settles_throw _
    · refine ⟨.ok (), fun i inside => ?_⟩
      simp only [distinct, hole i inside, Option.isSome_some, if_true, if_neg few, if_neg negative]
      exact settles_of_succeeds
        (yields_bind (succeeds_lift _) fun _ _ => yields_pure trivial)

end Draw

section Writing

variable {γ : Type} {f : Nat → γ} {order : List Nat} {rows : Array γ}

theorem mem_order {n i : Nat} (perm : order.Perm (List.range n)) : i ∈ order ↔ i < n :=
  perm.mem_iff.trans List.mem_range

theorem getElem?_foldl_set {i : Nat} (inside : i < rows.size) :
    (order.foldl (fun rows i => rows.setIfInBounds i (f i)) rows)[i]? =
      if i ∈ order then some (f i) else rows[i]? := by
  induction order generalizing rows with
  | nil => simp
  | cons j order ih =>
    rw [List.foldl_cons, ih (by simpa using inside)]
    by_cases later : i ∈ order
    · simp [later]
    · by_cases here : j = i
      · simp [here, later, inside]
      · simp [Ne.symm here, later, Array.getElem?_setIfInBounds_ne here]

theorem size_foldl_set :
    (order.foldl (fun rows i => rows.setIfInBounds i (f i)) rows).size = rows.size := by
  induction order generalizing rows with
  | nil => rfl
  | cons j order ih => rw [List.foldl_cons, ih, Array.size_setIfInBounds]

/-- Rows that are written one after another, until all are written. -/
theorem foldl_set_perm (perm : order.Perm (List.range rows.size)) :
    order.foldl (fun rows i => rows.setIfInBounds i (f i)) rows =
      (Array.range rows.size).map f := by
  apply Array.ext (by simp [size_foldl_set])
  intro i below _
  rw [size_foldl_set] at below
  have here : (order.foldl (fun rows i => rows.setIfInBounds i (f i)) rows)[i]? = _ :=
    getElem?_foldl_set below
  rw [if_pos ((mem_order perm).mpr below),
    Array.getElem?_eq_getElem (by rwa [size_foldl_set])] at here
  simpa using Option.some.inj here

end Writing

variable {σ α P : Type} [Scalar α] {β γ : Type}

/-- The trackers are the same, but for whether a front has its crowding distances at hand. -/
inductive Tracker.SameButDistances : Option (Tracker α P) → Option (Tracker α P) → Prop
  | refl (t : Option (Tracker α P)) : SameButDistances t t
  | front (front : Front α P) (crowding : Option (Array α))
      (same : Front.distances { front with crowding } = front.distances) :
      SameButDistances (some (.several front)) (some (.several { front with crowding }))

namespace Tracker.SameButDistances

variable {t t' t'' : Option (Tracker α P)}

theorem symm (h : SameButDistances t t') : SameButDistances t' t := by
  cases h with
  | refl => exact .refl t
  | front front crowding same =>
    exact .front { front with crowding } front.crowding same.symm

theorem trans (h : SameButDistances t t') (h' : SameButDistances t' t'') :
    SameButDistances t t'' := by
  cases h with
  | refl => exact h'
  | front front crowding same =>
    cases h' with
    | refl => exact .front front crowding same
    | front _ crowding' same' => exact .front front crowding' (same'.trans same)

end Tracker.SameButDistances

namespace Run

variable {run run' run'' : Run α P}

/-- Random numbers were drawn and crowding distances looked up, and the run is the same apart from
that. -/
def Consulted (run run' : Run α P) : Prop :=
  ∃ streams tracker, run' = { run with streams, tracker } ∧
    Tracker.SameButDistances run.tracker tracker

theorem Consulted.refl (run : Run α P) : run.Consulted run :=
  ⟨run.streams, run.tracker, rfl, .refl _⟩

theorem Consulted.trans (h : run.Consulted run') (h' : run'.Consulted run'') :
    run.Consulted run'' := by
  obtain ⟨_, _, rfl, same⟩ := h
  obtain ⟨streams, tracker, rfl, same'⟩ := h'
  exact ⟨streams, tracker, rfl, same.trans same'⟩

theorem Consulted.symm (h : run.Consulted run') : run'.Consulted run := by
  obtain ⟨_, _, rfl, same⟩ := h
  exact ⟨run.streams, run.tracker, rfl, same.symm⟩

theorem consulted_of_redrawn (h : Search.Redrawn run run') : run.Consulted run' := by
  obtain ⟨streams, rfl⟩ := h
  exact ⟨streams, run.tracker, rfl, .refl _⟩

theorem consulted_measureFront (run : Run α P) : run.Consulted run.measureFront := by
  unfold measureFront
  split
  next front tracked =>
    refine ⟨run.streams, some (.several front.measured), rfl, ?_⟩
    rw [tracked]
    exact .front front _ rfl
  next => exact .refl run

/-- Neither run has a front, or the fronts have the same members at the same distances. -/
theorem Consulted.front_cases (h : run.Consulted run') :
    run.front? = none ∧ run'.front? = none ∧ run'.incumbent? = run.incumbent? ∨
      ∃ (front : Front α P) (crowding : Option (Array α)), run.front? = some front ∧
        run'.front? = some { front with crowding } ∧
        Front.distances { front with crowding } = front.distances := by
  obtain ⟨streams, tracker, rfl, same⟩ := h
  cases tracked : run.tracker with
  | none =>
    rw [tracked] at same
    cases same
    exact .inl ⟨by simp [front?, tracked], rfl, by simp [incumbent?, tracked]⟩
  | some t =>
    rw [tracked] at same
    cases same with
    | refl =>
      cases t with
      | single best =>
        exact .inl ⟨by simp [front?, tracked, Tracker.front?], rfl, by simp [incumbent?, tracked]⟩
      | several front =>
        exact .inr ⟨front, front.crowding, by simp [front?, tracked, Tracker.front?], rfl, rfl⟩
    | front front crowding same =>
      exact .inr ⟨front, crowding, by simp [front?, tracked, Tracker.front?], rfl, same⟩

theorem Consulted.members (h : run.Consulted run') :
    run'.front?.map (·.members) = run.front?.map (·.members) := by
  rcases h.front_cases with ⟨none, none', -⟩ | ⟨front, crowding, found, found', -⟩
  · rw [none, none']
  · rw [found, found']
    rfl

/-- The best point is no matter of distances. -/
theorem Consulted.bestX (h : run.Consulted run') : run'.bestX = run.bestX := by
  unfold Run.bestX
  rcases h.front_cases with ⟨none, none', incumbent⟩ | ⟨front, crowding, found, found', -⟩
  · rw [none, none', incumbent]
  · rw [found, found']
    rfl

theorem Consulted.sampleLeader (h : run.Consulted run') :
    (run'.sampleLeader : Draw (Row α)) = run.sampleLeader := by
  unfold Run.sampleLeader
  rw [h.bestX]
  rcases h.front_cases with ⟨none, none', -⟩ | ⟨front, crowding, found, found', -⟩
  · rw [none, none']
  · rw [found, found']
    rfl

end Run

namespace Search

variable {s : Run α P × Session σ} {id : StreamId}

/-- The computation gives what a draw gives on one stream, and does no more than that and a look at
crowding distances. -/
structure Follows (id : StreamId) (m : Search σ α P β) (d : Draw β) (s : Run α P × Session σ) :
    Prop where
  result : (m.run s).1 = (d.run (s.1.streams.get id)).1
  stream : (m.run s).2.1.streams.get id = (d.run (s.1.streams.get id)).2
  others : ∀ other, other ≠ id → (m.run s).2.1.streams.get other = s.1.streams.get other
  consulted : s.1.Consulted (m.run s).2.1
  session : (m.run s).2.2 = s.2

theorem follows_draw (d : Draw β) : Follows id (draw id d : Search σ α P β) d s where
  result := rfl
  stream := by
    rw [run_draw, Streams.run_eq, Streams.get_set, if_pos rfl]
    rfl
  others other different := by
    rw [run_draw, Streams.run_eq, Streams.get_set, if_neg (Ne.symm different)]
  consulted := ⟨_, s.1.tracker, rfl, .refl _⟩
  session := rfl

theorem follows_pure (b : β) : Follows id (pure b : Search σ α P β) (pure b) s :=
  ⟨rfl, rfl, fun _ _ => rfl, .refl _, rfl⟩

theorem follows_ofExcept (r : Except Error β) :
    Follows id (ofExcept r : Search σ α P β) (MonadExcept.ofExcept r) s := by
  cases r <;> exact ⟨rfl, rfl, fun _ _ => rfl, .refl _, rfl⟩

/-- A look at the distances is no draw. -/
theorem follows_measureFront :
    Follows id (update Run.measureFront : Search σ α P Unit) (pure ()) s := by
  have streams : s.1.measureFront.streams = s.1.streams := by
    unfold Run.measureFront
    split <;> rfl
  exact ⟨rfl, congrArg (·.get id) streams, fun other _ => congrArg (·.get other) streams,
    Run.consulted_measureFront s.1, rfl⟩

theorem follows_current {f : Run α P → Search σ α P β} {d : Draw β}
    (h : Follows id (f s.1) d s) : Follows id (current >>= f) d s :=
  ⟨h.result, h.stream, h.others, h.consulted, h.session⟩

theorem follows_bind {m : Search σ α P β} {d : Draw β} {f : β → Search σ α P γ}
    {f' : β → Draw γ} (first : Follows id m d s)
    (next : ∀ b s', s.1.Consulted s'.1 → Follows id (f b) (f' b) s') :
    Follows id (m >>= f) (d >>= f') s := by
  obtain ⟨result, stream, others, consulted, session⟩ := first
  rcases hd : d.run (s.1.streams.get id) with ⟨r, g⟩
  rcases hm : m.run s with ⟨r', s'⟩
  rw [hd, hm] at result stream
  rw [hm] at others consulted session
  obtain rfl : r' = r := result
  obtain rfl : s'.1.streams.get id = g := stream
  cases r' with
  | error e => constructor <;> simp only [run_bind, hd, hm] <;> assumption
  | ok b =>
    obtain ⟨result', stream', others', consulted', session'⟩ := next b s' consulted
    constructor <;> simp only [run_bind, hd, hm]
    · exact result'
    · exact stream'
    · exact fun other different => (others' other different).trans (others other different)
    · exact consulted.trans consulted'
    · exact session'.trans session

end Search

/-- What happens when an individual is visited: something comes of a look at the run and of draws,
it is left in the run, and it makes a candidate. -/
structure Round (σ α P β : Type) [Scalar α] where
  looks : Nat → Search σ α P β
  leaves : Nat → β → Run α P → Run α P
  builds : Run α P → Nat → β → Row α

namespace Round

open Search

/-- A round in which nobody leaves anything in the run, and what is drawn is the candidate. -/
def ofDraws (draws : Run α P → Nat → Draw (Row α)) : Round σ α P (Row α) where
  looks i := do draw (.individual i) (draws (← current) i)
  leaves _ _ run := run
  builds _ _ candidate := candidate

variable (r : Round σ α P β)

def visit (i : Nat) : Search σ α P (Row α) := do
  let b ← r.looks i
  update (r.leaves i b)
  return r.builds (← current) i b

/-- The candidates of the individuals in `order`, which are visited one after another. Whatever
stands in their places is overwritten. -/
def candidates (order : List Nat) (blank : Rows α) : Search σ α P (Rows α) :=
  order.foldlM (fun rows i => return rows.setIfInBounds i (← r.visit i)) blank

/-- Nobody sees what the others do: an individual draws what it would draw if it came first. -/
structure Independent (draws : Run α P → Nat → Draw β) : Prop where
  follows (s : Run α P × Session σ) (i : Nat) :
    Follows (.individual i) (r.looks i) (draws s.1 i) s
  draws_consulted {run run' : Run α P} (h : run.Consulted run') : draws run' = draws run
  draws_leaves (run : Run α P) {i j : Nat} (different : i ≠ j) (c : β) :
    draws (r.leaves j c run) i = draws run i
  builds_consulted {run run' : Run α P} (h : run.Consulted run') : r.builds run' = r.builds run
  builds_leaves (run : Run α P) (j : Nat) (c : β) : r.builds (r.leaves j c run) = r.builds run
  leaves_consulted {run run' : Run α P} (h : run.Consulted run') (i : Nat) (b : β) :
    (r.leaves i b run).Consulted (r.leaves i b run')
  leaves_comm (run : Run α P) {i j : Nat} (different : i ≠ j) (b c : β) :
    r.leaves i b (r.leaves j c run) = r.leaves j c (r.leaves i b run)
  leaves_streams (run : Run α P) (i : Nat) (b : β) : (r.leaves i b run).streams = run.streams

variable {r} {draws : Run α P → Nat → Draw β} {s : Run α P × Session σ}

theorem independent_ofDraws {draws : Run α P → Nat → Draw (Row α)}
    (consulted : ∀ run run', run.Consulted run' → draws run' = draws run) :
    (ofDraws draws : Round σ α P (Row α)).Independent draws where
  follows _ _ := follows_current (follows_draw _)
  draws_consulted h := consulted _ _ h
  draws_leaves _ _ _ _ _ := rfl
  builds_consulted _ := rfl
  builds_leaves _ _ _ := rfl
  leaves_consulted h _ _ := h
  leaves_comm _ _ _ _ _ _ := rfl
  leaves_streams _ _ _ := rfl

/-- All that individuals leave. -/
def leavesAll (r : Round σ α P β) (out : Nat → β) (order : List Nat) (run : Run α P) : Run α P :=
  order.foldl (fun run i => r.leaves i (out i) run) run

theorem Independent.leavesAll_consulted (ind : r.Independent draws) (out : Nat → β)
    (order : List Nat) {run run' : Run α P} (h : run.Consulted run') :
    (r.leavesAll out order run).Consulted (r.leavesAll out order run') := by
  induction order generalizing run run' with
  | nil => exact h
  | cons i order ih => exact ih (ind.leaves_consulted h i (out i))

theorem Independent.leavesAll_perm (ind : r.Independent draws) (out : Nat → β)
    {order order' : List Nat} (perm : order.Perm order') (run : Run α P) :
    r.leavesAll out order run = r.leavesAll out order' run := by
  refine perm.foldl_eq' (fun i _ j _ run => ?_) run
  by_cases same : i = j
  · rw [same]
  · exact ind.leaves_comm run (Ne.symm same) _ _

/-- A visit comes to what the individual draws. -/
theorem Independent.visit_run (ind : r.Independent draws) {i : Nat} {b : β}
    {g : Random.Generator}
    (alone : (draws s.1 i).run (s.1.streams.get (.individual i)) = (.ok b, g)) :
    ∃ s', (r.visit i).run s = (.ok (r.builds s.1 i b), s') ∧
      (r.leaves i b s.1).Consulted s'.1 ∧ s'.2 = s.2 ∧
      s'.1.streams.get (.individual i) = g ∧
      ∀ id, id ≠ .individual i → s'.1.streams.get id = s.1.streams.get id := by
  obtain ⟨result, stream, others, consulted, session⟩ := ind.follows s i
  rcases looked : (r.looks i).run s with ⟨_, s₁⟩
  rw [looked, alone] at result stream
  rw [looked] at others consulted session
  subst result
  refine ⟨(r.leaves i b s₁.1, s₁.2), ?_, ind.leaves_consulted consulted i b, session, ?_, ?_⟩
  · rw [visit, run_bind, looked]
    change (Except.ok (r.builds (r.leaves i b s₁.1) i b), _) = _
    rw [ind.builds_leaves, ind.builds_consulted consulted]
  · rw [ind.leaves_streams]
    exact stream
  · rw [ind.leaves_streams]
    exact others

theorem Independent.visit_fails (ind : r.Independent draws) {i : Nat} {e : Error}
    (alone : ((draws s.1 i).run (s.1.streams.get (.individual i))).1 = .error e) :
    ∃ s', (r.visit i).run s = (.error e, s') := by
  have result := (ind.follows s i).result
  rcases looked : (r.looks i).run s with ⟨_, s₁⟩
  rw [looked, alone] at result
  subst result
  exact ⟨s₁, by rw [visit, run_bind, looked]⟩

/-- By induction on the order: whoever comes first leaves the others to draw what they would have
drawn before. -/
theorem Independent.candidates_run (ind : r.Independent draws) {out : Nat → β} {order : List Nat}
    (nodup : order.Nodup) (blank : Rows α)
    (alone : ∀ i ∈ order, ((draws s.1 i).run (s.1.streams.get (.individual i))).1 = .ok (out i)) :
    ∃ s', (r.candidates order blank).run s =
        (.ok (order.foldl (fun rows i => rows.setIfInBounds i (r.builds s.1 i (out i))) blank),
          s') ∧
      (r.leavesAll out order s.1).Consulted s'.1 ∧ s'.2 = s.2 ∧
      (∀ i ∈ order, s'.1.streams.get (.individual i) =
        ((draws s.1 i).run (s.1.streams.get (.individual i))).2) ∧
      ∀ id, (∀ i ∈ order, id ≠ .individual i) → s'.1.streams.get id = s.1.streams.get id := by
  induction order generalizing s blank with
  | nil => exact ⟨s, rfl, .refl _, rfl, nofun, fun _ _ => rfl⟩
  | cons i order ih =>
    obtain ⟨new, nodup⟩ := List.nodup_cons.mp nodup
    obtain ⟨s₁, visited, left, session, stream, others⟩ :=
      ind.visit_run (Prod.ext (alone i List.mem_cons_self) rfl)
    have apart {j : Nat} (later : j ∈ order) : j ≠ i := fun same => new (same ▸ later)
    have builds : r.builds s₁.1 = r.builds s.1 := by
      rw [ind.builds_consulted left, ind.builds_leaves]
    have draws₁ {j : Nat} (later : j ∈ order) :
        (draws s₁.1 j).run (s₁.1.streams.get (.individual j)) =
          (draws s.1 j).run (s.1.streams.get (.individual j)) := by
      rw [ind.draws_consulted left, ind.draws_leaves _ (apart later),
        others _ fun same => apart later (StreamId.individual.inj same)]
    obtain ⟨s', ran, left', session', streams', others'⟩ := ih (s := s₁) nodup
      (blank.setIfInBounds i (r.builds s.1 i (out i)))
      fun j later => by rw [draws₁ later]; exact alone j (List.mem_cons_of_mem _ later)
    rw [builds] at ran
    refine ⟨s', ?_, (ind.leavesAll_consulted out order left).trans left', session'.trans session,
      ?_, ?_⟩
    · have first : (do return blank.setIfInBounds i (← r.visit i) : Search σ α P (Rows α)).run s =
          (.ok (blank.setIfInBounds i (r.builds s.1 i (out i))), s₁) := by
        rw [run_bind, visited]
        rfl
      rw [candidates, List.foldlM_cons, run_bind, first]
      exact ran
    · intro j hj
      rcases List.mem_cons.mp hj with rfl | later
      · rw [others' _ fun k later same => apart later (StreamId.individual.inj same).symm]
        exact stream
      · rw [streams' j later, draws₁ later]
    · intro id outside
      rw [others' id fun j later => outside j (List.mem_cons_of_mem _ later),
        others id (outside i List.mem_cons_self)]

theorem Independent.candidates_fails (ind : r.Independent draws) {i : Nat} {order : List Nat}
    {e : Error} (blank : Rows α)
    (alone : ((draws s.1 i).run (s.1.streams.get (.individual i))).1 = .error e) :
    ∃ s', (r.candidates (i :: order) blank).run s = (.error e, s') := by
  obtain ⟨s', visited⟩ := ind.visit_fails alone
  refine ⟨s', ?_⟩
  have first : (do return blank.setIfInBounds i (← r.visit i) : Search σ α P (Rows α)).run s =
      (.error e, s') := by
    rw [run_bind, visited]
  rw [candidates, List.foldlM_cons, run_bind, first]

end Round

namespace Search

variable {each : Nat → Draw β} {s : Run α P × Session σ}

/-- What is drawn by all individuals, if it cannot fail. -/
theorem perIndividual_run {out : Nat → β} (succeeds : ∀ i < s.1.popSize, (each i).Succeeds)
    (alone : ∀ i < s.1.popSize,
      ((each i).run (s.1.streams.get (.individual i))).1 = .ok (out i)) :
    ∃ s', (perIndividual each : Search σ α P (Array β)).run s =
        (.ok ((Array.range s.1.popSize).map out), s') ∧ Redrawn s.1 s'.1 ∧ s'.2 = s.2 ∧
      (∀ i < s.1.popSize, s'.1.streams.get (.individual i) =
        ((each i).run (s.1.streams.get (.individual i))).2) ∧
      ∀ id, (∀ i < s.1.popSize, id ≠ .individual i) →
        s'.1.streams.get id = s.1.streams.get id := by
  obtain ⟨drawn, s', ran, -⟩ := exists_of_ends (perIndividual_yields succeeds)
  obtain ⟨size, redrawn, session, own, others⟩ := perIndividual_drawn each drawn s' ran
  refine ⟨s', ?_, redrawn, session, fun i inside => ?_, others⟩
  · rw [ran]
    congr 2
    apply Array.ext (by simp [size])
    intro i below _
    obtain ⟨b, here, drew⟩ := own i (by omega)
    have drew : (each i).run (s.1.streams.get (.individual i)) = _ := drew
    have same : b = out i := by
      have made := alone i (by omega)
      rw [drew] at made
      exact Except.ok.inj made
    rw [Array.getElem?_eq_getElem below] at here
    simp [Option.some.inj here, same]
  · obtain ⟨b, -, drew⟩ := own i inside
    have drew : (each i).run (s.1.streams.get (.individual i)) = _ := drew
    rw [drew]

theorem drawEach_fails {i : Nat} {order : List Nat} {e : Error}
    (alone : ((each i).run (s.1.streams.get (.individual i))).1 = .error e) :
    ∃ s', (drawEach (i :: order) each : Search σ α P (Array β)).run s = (.error e, s') := by
  rw [drawEach, List.foldlM_cons, run_bind, run_bind, run_draw, Streams.run_eq]
  have failed : ((each i) (s.1.streams.get (.individual i))).1 = .error e := alone
  rw [failed]
  exact ⟨_, rfl⟩

end Search

namespace Round

open Search

variable {r : Round σ α P β} {draws : Run α P → Nat → Draw β} {s : Run α P × Session σ}

/-- What comes of a round in some order, beside what the individuals draw in the order of their
indices. Either both fail in the same way, or the candidates are built from what is drawn, and the
streams are left in the same states. -/
inductive Outcome (r : Round σ α P β) (s : Run α P × Session σ) :
    Except Error (Rows α) × Run α P × Session σ →
      Except Error (Array β) × Run α P × Session σ → Prop
  | fails (e : Error) (s₁ s₂ : Run α P × Session σ) : Outcome r s (.error e, s₁) (.error e, s₂)
  | succeeds (out : Nat → β) (s₁ s₂ : Run α P × Session σ)
      (left : (r.leavesAll out (List.range s.1.popSize) s.1).Consulted s₁.1)
      (redrawn : Redrawn s.1 s₂.1)
      (streams : ∀ id, s₁.1.streams.get id = s₂.1.streams.get id) (session : s₁.2 = s₂.2) :
      Outcome r s (.ok ((Array.range s.1.popSize).map fun i => r.builds s.1 i (out i)), s₁)
        (.ok ((Array.range s.1.popSize).map out), s₂)

theorem Independent.outcome_succeeds [Inhabited β] (ind : r.Independent draws)
    (succeeds : ∀ i < s.1.popSize, (draws s.1 i).Succeeds) {order : List Nat}
    (perm : order.Perm (List.range s.1.popSize)) {blank : Rows α}
    (size : blank.size = s.1.popSize) :
    r.Outcome s ((r.candidates order blank).run s)
      ((perIndividual (draws s.1) : Search σ α P (Array β)).run s) := by
  have made (i : Nat) (inside : i < s.1.popSize) :
      ∃ b, ((draws s.1 i).run (s.1.streams.get (.individual i))).1 = .ok b := by
    obtain ⟨b, g, drew, -⟩ := succeeds i inside (s.1.streams.get (.individual i))
    exact ⟨b, congrArg Prod.fst drew⟩
  choose! out alone using made
  obtain ⟨s₁, ran, left, session, own, others⟩ :=
    ind.candidates_run (perm.nodup_iff.mpr List.nodup_range) blank fun i visited =>
      alone i ((mem_order perm).mp visited)
  obtain ⟨s₂, ran', redrawn, session', own', others'⟩ := perIndividual_run succeeds alone
  rw [foldl_set_perm (by rwa [size]), size] at ran
  rw [ind.leavesAll_perm out perm] at left
  rw [ran, ran']
  refine .succeeds out s₁ s₂ left redrawn (fun id => ?_) (session.trans session'.symm)
  by_cases visited : ∃ i < s.1.popSize, id = .individual i
  · obtain ⟨i, inside, rfl⟩ := visited
    rw [own i ((mem_order perm).mpr inside), own' i inside]
  · have outside (i : Nat) (inside : i < s.1.popSize) : id ≠ .individual i :=
      fun same => visited ⟨i, inside, same⟩
    rw [others id fun i visited => outside i ((mem_order perm).mp visited), others' id outside]

/-- Whoever comes first fails, and there is somebody who does. -/
theorem Independent.outcome_fails (ind : r.Independent draws) {e : Error}
    (fails : ∀ i < s.1.popSize, (draws s.1 i).Settles (.error e)) (somebody : 0 < s.1.popSize)
    {order : List Nat} (perm : order.Perm (List.range s.1.popSize)) (blank : Rows α) :
    r.Outcome s ((r.candidates order blank).run s)
      ((perIndividual (draws s.1) : Search σ α P (Array β)).run s) := by
  have alone {i : Nat} (inside : i < s.1.popSize) :=
    (fails i inside).fails (s.1.streams.get (.individual i))
  obtain ⟨s₁, ran⟩ : ∃ s₁, (r.candidates order blank).run s = (.error e, s₁) := by
    cases order with
    | nil =>
      have nobody : s.1.popSize = 0 := by simpa using perm.length_eq.symm
      omega
    | cons i order =>
      have first : i < s.1.popSize := (mem_order perm).mp List.mem_cons_self
      exact ind.candidates_fails blank (alone first)
  obtain ⟨n, many⟩ : ∃ n, s.1.popSize = n + 1 := ⟨s.1.popSize - 1, by omega⟩
  obtain ⟨s₂, ran'⟩ : ∃ s₂, (drawEach (0 :: (List.range n).map Nat.succ) (draws s.1) :
      Search σ α P (Array β)).run s = (.error e, s₂) :=
    drawEach_fails (alone somebody)
  have ran' : (perIndividual (draws s.1) : Search σ α P (Array β)).run s = (.error e, s₂) := by
    rw [perIndividual, run_bind, run_current]
    simp only [many, List.range_succ_eq_map]
    exact ran'
  rw [ran, ran']
  exact .fails e s₁ s₂

/-- The order of the visits does not show. -/
theorem Independent.outcome [Inhabited β] (ind : r.Independent draws)
    (settles : ∃ verdict, ∀ i < s.1.popSize, (draws s.1 i).Settles verdict) {order : List Nat}
    (perm : order.Perm (List.range s.1.popSize)) {blank : Rows α}
    (size : blank.size = s.1.popSize) :
    r.Outcome s ((r.candidates order blank).run s)
      ((perIndividual (draws s.1) : Search σ α P (Array β)).run s) := by
  obtain ⟨verdict, settles⟩ := settles
  cases verdict with
  | ok _ => exact ind.outcome_succeeds (fun i inside => (settles i inside).succeeds) perm size
  | error e =>
    rcases Nat.eq_zero_or_pos s.1.popSize with nobody | somebody
    · exact ind.outcome_succeeds (fun i inside => by omega) perm size
    · exact ind.outcome_fails settles somebody perm blank

end Round

end BoxSearch
