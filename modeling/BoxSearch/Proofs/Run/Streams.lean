import BoxSearch.Proofs.Run.Evaluation

/-!
What becomes of the streams of a run.

Every individual draws from a stream of its own. So what individuals draw one after another is what
each would draw alone, and the stream of everybody else is left where it was.
-/

namespace BoxSearch

namespace Streams

variable {β : Type}

theorem run_eq (s : Streams) (id : StreamId) (d : Draw β) :
    s.run id d = ((d (s.get id)).1, s.set id (d (s.get id)).2) :=
  rfl

end Streams

namespace Search

variable {σ α P : Type} [Scalar α] {β : Type} {s : Run α P × Session σ}

/-- What is drawn from a stream is what the stream holds, and no other stream takes part. -/
theorem draw_drawn (id : StreamId) (d : Draw β) :
    Ensures (draw id d : Search σ α P β) s fun b s' => Redrawn s.1 s'.1 ∧ s'.2 = s.2 ∧
      d (s.1.streams.get id) = (.ok b, s'.1.streams.get id) ∧
      ∀ other, other ≠ id → s'.1.streams.get other = s.1.streams.get other := by
  rw [ensures_draw]
  intro b streams drawn
  rw [Streams.run_eq] at drawn
  obtain ⟨result, rfl⟩ := Prod.mk.inj drawn
  refine ⟨⟨_, rfl⟩, rfl, ?_, fun other different => ?_⟩
  · rw [← result, Streams.get_set, if_pos rfl]
    rfl
  · simp [Ne.symm different]

/-- Individuals that are all different draw what each would draw alone. -/
theorem drawEach_drawn {order : List Nat} (nodup : order.Nodup) (each : Nat → Draw β) :
    Ensures (drawEach order each : Search σ α P (Array β)) s fun drawn s' =>
      drawn.size = order.length ∧ Redrawn s.1 s'.1 ∧ s'.2 = s.2 ∧
      (∀ k i : Nat, order[k]? = some i → ∃ b, drawn[k]? = some b ∧
        each i (s.1.streams.get (.individual i)) = (.ok b, s'.1.streams.get (.individual i))) ∧
      ∀ id, (∀ i ∈ order, id ≠ .individual i) → s'.1.streams.get id = s.1.streams.get id := by
  refine ensures_foldlM (c := #[]) (fun done (drawn : Array β) s' =>
    drawn.size = done.length ∧ Redrawn s.1 s'.1 ∧ s'.2 = s.2 ∧
      (∀ k i : Nat, done[k]? = some i → ∃ b, drawn[k]? = some b ∧
        each i (s.1.streams.get (.individual i)) = (.ok b, s'.1.streams.get (.individual i))) ∧
      ∀ id, (∀ i ∈ done, id ≠ .individual i) → s'.1.streams.get id = s.1.streams.get id)
    ⟨rfl, .refl _, rfl, by simp, fun _ _ => rfl⟩ ?_
  rintro done i rest drawn s₁ split ⟨size, redrawn, session, each₁, others₁⟩
  simp only [ensures_bind, ensures_pure]
  refine (draw_drawn _ _).mono ?_
  rintro b s₂ ⟨redrawn₂, session₂, drawn₂, others₂⟩
  have new : i ∉ done := by
    intro before
    rw [split] at nodup
    exact (List.nodup_append.mp nodup).2.2 i before i List.mem_cons_self rfl
  have untouched : s₁.1.streams.get (.individual i) = s.1.streams.get (.individual i) :=
    others₁ _ fun j hj same => new (StreamId.individual.inj same ▸ hj)
  refine ⟨by simp [size], redrawn.trans redrawn₂, session₂.trans session, fun k j hk => ?_,
    fun id outside => ?_⟩
  · by_cases last : k = done.length
    · subst last
      have same : i = j := by simpa using hk
      subst same
      refine ⟨b, by simp [← size], ?_⟩
      rw [← untouched]
      exact drawn₂
    · have inside : k < done.length := by
        have bound := (List.getElem?_eq_some_iff.mp hk).1
        simp only [List.length_append, List.length_cons, List.length_nil] at bound
        omega
      rw [List.getElem?_append_left inside] at hk
      obtain ⟨c, hc, alone⟩ := each₁ k j hk
      have below : k < drawn.size := by omega
      refine ⟨c, by rw [Array.getElem?_push_lt below, ← Array.getElem?_eq_getElem below, hc], ?_⟩
      rw [alone, others₂ _ fun same => new ?_]
      cases same
      exact List.mem_of_getElem? hk
  · rw [others₂ id (outside i (by simp)), others₁ id fun j hj => outside j (by simp [hj])]

/-- Every individual draws what it would draw alone, and nobody else draws. -/
theorem perIndividual_drawn (each : Nat → Draw β) :
    Ensures (perIndividual each : Search σ α P (Array β)) s fun drawn s' =>
      drawn.size = s.1.popSize ∧ Redrawn s.1 s'.1 ∧ s'.2 = s.2 ∧
      (∀ i < s.1.popSize, ∃ b, drawn[i]? = some b ∧
        each i (s.1.streams.get (.individual i)) = (.ok b, s'.1.streams.get (.individual i))) ∧
      ∀ id, (∀ i < s.1.popSize, id ≠ .individual i) →
        s'.1.streams.get id = s.1.streams.get id := by
  rw [perIndividual, ensures_bind, ensures_current]
  refine (drawEach_drawn List.nodup_range each).mono ?_
  rintro drawn s' ⟨size, redrawn, session, alone, others⟩
  refine ⟨by simpa using size, redrawn, session, fun i hi => alone i i (by simp [hi]), ?_⟩
  intro id outside
  exact others id fun i hi => outside i (List.mem_range.mp hi)

/-- A property of all that individuals draw is one of what each draws alone. -/
theorem perIndividual_all {each : Nat → Draw β} {p : β → Prop}
    (alone : ∀ i < s.1.popSize, ∀ b g,
      each i (s.1.streams.get (.individual i)) = (.ok b, g) → p b) :
    Ensures (perIndividual each : Search σ α P (Array β)) s fun drawn _ => ∀ b ∈ drawn, p b := by
  refine (perIndividual_drawn each).mono ?_
  rintro drawn s' ⟨size, _, _, drawn', _⟩ b hb
  obtain ⟨i, hi, rfl⟩ := Array.mem_iff_getElem.mp hb
  rw [size] at hi
  obtain ⟨c, here, drew⟩ := drawn' i hi
  have same : c = drawn[i] := by
    rw [Array.getElem?_eq_getElem (by omega)] at here
    exact (Option.some.inj here).symm
  exact alone i hi _ _ (same ▸ drew)

/-- Evaluation draws nothing. -/
theorem streams_of_evaluated {evaluator : Evaluator σ α P} {rows F : Rows α}
    {s' : Run α P × Session σ} (h : Run.Evaluated evaluator rows F s s') :
    s'.1.streams = s.1.streams := by
  obtain ⟨block, width, raw, ses, run, -, -, -, registered, -, changed, -⟩ := h
  rw [changed]
  cases registered <;> rfl

theorem evaluate_streams (evaluator : Evaluator σ α P) (X : Rows α) :
    Ensures (evaluate evaluator X) s fun _ s' => s'.1.streams = s.1.streams := by
  refine (evaluate_ensures evaluator X).mono fun _ s' h => ?_
  split at h
  · rw [h.2]
  · exact streams_of_evaluated h

theorem evaluateAccept_streams (evaluator : Evaluator σ α P) (X : Rows α) :
    Ensures (evaluateAccept evaluator X) s fun _ s' => s'.1.streams = s.1.streams := by
  simp only [evaluateAccept, ensures_bind, ensures_current, ensures_ofExcept, ensures_update]
  exact (evaluate_streams evaluator X).mono fun _ s' h _ _ => h

theorem evaluateAll_streams (evaluator : Evaluator σ α P) :
    Ensures (evaluateAll evaluator) s fun _ s' => s'.1.streams = s.1.streams := by
  refine (evaluateAll_ensures evaluator).mono fun _ s' h => ?_
  split at h
  · rw [h]
  · obtain ⟨F, s₁, evaluated, rfl⟩ := h
    exact (streams_of_evaluated evaluated : s₁.1.streams = s.1.streams)

end Search

end BoxSearch
