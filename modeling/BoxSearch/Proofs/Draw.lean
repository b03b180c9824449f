import BoxSearch.Proofs.Run.Outcomes
import BoxSearch.Proofs.Run.Streams
import BoxSearch.Strategy.Basic

/-!
Draws that cannot fail.

A draw fails only for what is asked of it: an index of an empty range, more distinct indices than
there are. `Yields d p` says that this does not happen, whatever the state of the stream, and that
the result is `p`. Every operator and every strategy draws so, given what the checks on settings
promise.
-/

namespace BoxSearch

namespace Draw

variable {β γ : Type} {p : β → Prop}

/-- From every state of the stream the draw gives a result, and a good one. -/
def Yields (d : Draw β) (p : β → Prop) : Prop :=
  ∀ g, ∃ b g', d g = (.ok b, g') ∧ p b

/-- From every state of the stream the draw gives a result. -/
abbrev Succeeds (d : Draw β) : Prop :=
  d.Yields fun _ => True

theorem Yields.mono {d : Draw β} {q : β → Prop} (h : d.Yields p)
    (imp : ∀ b, p b → q b) : d.Yields q := by
  intro g
  obtain ⟨b, g', drawn, hb⟩ := h g
  exact ⟨b, g', drawn, imp b hb⟩

theorem yields_pure {b : β} (h : p b) : (pure b : Draw β).Yields p :=
  fun g => ⟨b, g, rfl, h⟩

theorem yields_bind {d : Draw β} {f : β → Draw γ} {q : γ → Prop} (first : d.Yields p)
    (next : ∀ b, p b → (f b).Yields q) : (d >>= f).Yields q := by
  intro g
  obtain ⟨b, g₁, drawn, hb⟩ := first g
  obtain ⟨c, g₂, drawn', hc⟩ := next b hb g₁
  have here : d.run g = (.ok b, g₁) := drawn
  have whole : (d >>= f).run g = (.ok c, g₂) := by
    rw [run_bind, here]
    exact drawn'
  exact ⟨c, g₂, whole, hc⟩

theorem yields_ofExcept {r : Except Error β} {b : β} (h : r = .ok b) (hb : p b) :
    (MonadExcept.ofExcept r : Draw β).Yields p := by
  rw [h]
  exact yields_pure hb

theorem succeeds_lift (draw : Random.Generator → β × Random.Generator) : (lift draw).Succeeds :=
  fun g => ⟨(draw g).1, (draw g).2, rfl, trivial⟩

theorem succeeds_unit : unit.Succeeds :=
  succeeds_lift _

theorem succeeds_chance (p : Float) : (chance p).Succeeds :=
  yields_bind succeeds_unit fun _ _ => yields_pure trivial

theorem succeeds_normal (mean std : Float) : (RandomSource.normal mean std : Draw Float).Succeeds :=
  yields_bind (succeeds_lift _) fun _ _ => yields_pure trivial

theorem succeeds_below (n : Nat) : (RandomSource.below n : Draw Nat).Succeeds :=
  succeeds_lift _

theorem succeeds_shuffled (xs : Array β) : (shuffled xs).Succeeds :=
  succeeds_lift _

/-- A positive range that fits a machine word has an index. -/
theorem succeeds_index {n : Int} (positive : 0 < n) (fits : n ≤ 0x8000000000000000) :
    (index n).Succeeds := by
  rw [index, if_neg (by omega), if_neg (by omega)]
  exact succeeds_lift _

/-- As many distinct indices can be drawn as there are beside an excluded one. -/
theorem succeeds_distinct {n k i : Nat} (inside : i < n) (enough : k + 1 ≤ n) :
    (distinct n k (some (i : Int))).Succeeds := by
  have hole : gap? n (some (i : Int)) = some i := by
    rw [gap?, if_pos (by omega)]
    rfl
  unfold distinct
  simp only [hole, Option.isSome_some, if_true]
  rw [if_neg (by omega), if_neg (by omega)]
  exact yields_bind (succeeds_lift _) fun _ _ => yields_pure trivial

theorem yields_times {d : Draw β} (each : d.Yields p) (n : Nat) :
    (times n d).Yields fun xs => xs.size = n ∧ ∀ x ∈ xs, p x := by
  have loop (done : List Nat) (xs : Array β) (h : ∀ x ∈ xs, p x) :
      (done.foldlM (fun xs _ => return xs.push (← d)) xs : Draw (Array β)).Yields fun ys =>
        ys.size = xs.size + done.length ∧ ∀ x ∈ ys, p x := by
    induction done generalizing xs with
    | nil => exact yields_pure ⟨rfl, h⟩
    | cons i done ih =>
      rw [List.foldlM_cons]
      refine yields_bind (p := fun ys => ys.size = xs.size + 1 ∧ ∀ y ∈ ys, p y)
        (yields_bind each fun b hb => yields_pure ⟨by simp, fun y hy => ?_⟩) ?_
      · rcases Array.mem_push.mp hy with before | rfl
        · exact h y before
        · exact hb
      · rintro ys ⟨size, all⟩
        refine (ih ys all).mono fun zs hzs => ⟨?_, hzs.2⟩
        rw [hzs.1, size, List.length_cons]
        omega
  refine (loop (List.range n) #[] (by simp)).mono fun ys h => ⟨?_, h.2⟩
  simpa using h.1

theorem succeeds_times {d : Draw β} (each : d.Succeeds) (n : Nat) : (times n d).Succeeds :=
  (yields_times each n).mono fun _ _ => trivial

theorem yields_mapM {ι : Type} {f : ι → Draw β} {xs : List ι} (each : ∀ x ∈ xs, (f x).Succeeds) :
    (xs.mapM f).Yields fun bs => bs.length = xs.length := by
  induction xs with
  | nil => exact yields_pure rfl
  | cons x xs ih =>
    rw [List.mapM_cons]
    have rest := ih fun y hy => each y (List.mem_cons_of_mem _ hy)
    exact yields_bind (each x List.mem_cons_self) fun b _ => yields_bind rest fun bs length =>
      yields_pure (congrArg (· + 1) length)

end Draw

namespace Search

variable {σ α P : Type} [Scalar α] {β : Type} {s : Run α P × Session σ}
  {failed : Run α P × Session σ → Prop}

theorem draw_yields (id : StreamId) {d : Draw β} {p : β → Prop} (h : d.Yields p) :
    Ends (draw id d : Search σ α P β) s failed fun b s' =>
      p b ∧ Redrawn s.1 s'.1 ∧ s'.2 = s.2 := by
  obtain ⟨b, g, drawn, hb⟩ := h (s.1.streams.get id)
  rw [ends_draw, Streams.run_eq, drawn]
  exact ⟨hb, ⟨_, rfl⟩, rfl⟩

theorem perIndividual_yields {each : Nat → Draw β} {p : β → Prop}
    (h : ∀ i < s.1.popSize, (each i).Yields p) :
    Ends (perIndividual each : Search σ α P (Array β)) s failed fun drawn s' =>
      drawn.size = s.1.popSize ∧ (∀ b ∈ drawn, p b) ∧ Redrawn s.1 s'.1 ∧ s'.2 = s.2 := by
  rw [perIndividual, ends_bind, ends_current]
  have loop : Ends (drawEach (List.range s.1.popSize) each : Search σ α P (Array β)) s failed
      fun drawn s' => drawn.size = (List.range s.1.popSize).length ∧ (∀ b ∈ drawn, p b) ∧
        Redrawn s.1 s'.1 ∧ s'.2 = s.2 := by
    refine ends_foldlM (fun done (drawn : Array β) s' => drawn.size = done.length ∧
      (∀ b ∈ drawn, p b) ∧ Redrawn s.1 s'.1 ∧ s'.2 = s.2) ⟨rfl, by simp, .refl _, rfl⟩ ?_
    rintro done i rest drawn s₁ split ⟨size, all, redrawn, session⟩
    have inside : i < s.1.popSize := by
      rw [← List.mem_range, split]
      simp
    simp only [ends_bind, ends_pure]
    apply (draw_yields _ (h i inside)).imp
    rintro b s₂ ⟨hb, redrawn₂, session₂⟩
    refine ⟨by simp [size], fun c hc => ?_, redrawn.trans redrawn₂, session₂.trans session⟩
    rcases Array.mem_push.mp hc with before | rfl
    · exact all c before
    · exact hb
  apply loop.imp
  rintro drawn s' ⟨size, rest⟩
  exact ⟨by rwa [List.length_range] at size, rest⟩

end Search

namespace Variation

variable {α : Type} [Scalar α]

open Draw

theorem succeeds_uniformRow (n : Nat) : (uniformRow n : Draw (Row α)).Succeeds :=
  yields_bind (succeeds_times succeeds_unit n) fun _ _ => yields_pure trivial

theorem succeeds_normalRow (n : Nat) : (normalRow n : Draw (Row α)).Succeeds :=
  yields_bind (succeeds_times (succeeds_normal _ _) n) fun _ _ => yields_pure trivial

end Variation

end BoxSearch
