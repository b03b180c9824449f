import BoxSearch.Proofs.Solver.Progress
import BoxSearch.Proofs.Strategy.Pace

/-!
Runs that keep pace.

Two runs with the same settings and the same seed, each in a box of its own and with an objective of
its own, leave every stream in the same state after any number of generations. So nobody can tell
from the streams what was optimised, and a change of the objective does not shift the numbers that
are drawn.
-/

namespace BoxSearch

open Search Draw

variable {σ τ P : Type} {d w w' : Nat}

namespace Initial

theorem inStep_uniformRow {bounds bounds' : Bounds Float} (dim : bounds.dim = bounds'.dim) :
    InStep (fun _ _ => True) (uniformRow bounds) (uniformRow bounds') := by
  simp only [uniformRow, dim]
  apply inStep_guard
  apply inStep_guard
  exact inStep_bind (inStep_self _) fun _ _ _ => inStep_pure trivial

variable {s : Run Float P × Session σ} {s' : Run Float P × Session τ}

/-- Uniform rows take as many numbers from every stream in one box as in another. -/
theorem populate_together (size : s'.1.popSize = s.1.popSize) (dim : s.1.dim = s'.1.dim)
    (streams : s.1.SameStreams s'.1) :
    Together (populate .uniform) (populate .uniform) s s'
      fun _ _ t t' => t.1.SameStreams t'.1 := by
  rw [populate, populate, sample, sample]
  apply together_bind
  apply together_bind
  apply together_current
  apply together_bind
  refine (perIndividual_together size streams fun _ _ => inStep_uniformRow dim).mono ?_
  rintro rows rows' t t' ⟨-, streams, -⟩
  apply together_pure
  apply together_bind
  apply together_current
  apply together_guard
  refine (together_of_ensures (setPositions_ensures _ none) (setPositions_ensures _ none)).mono ?_
  rintro _ _ u u' ⟨⟨_, _, _, same⟩, _, _, _, same'⟩
  rw [same, same']
  exact streams

end Initial

namespace Opening

variable {o : Opening σ} {o' : Opening τ} {s : Run Float P × Session σ}
  {s' : Run Float P × Session τ}

theorem begin_together (e : Evaluator σ Float P) (e' : Evaluator τ Float P)
    (cold : o.population = none) (uniform : o.initializer.getD .uniform = .uniform)
    (cold' : o'.population = none) (uniform' : o'.initializer.getD .uniform = .uniform)
    (size : s'.1.popSize = s.1.popSize) (dim : s.1.dim = s'.1.dim)
    (streams : s.1.SameStreams s'.1) :
    Together (o.begin e) (o'.begin e') s s' fun _ _ t t' => t.1.SameStreams t'.1 := by
  have quiet {ρ : Type} (f : Evaluator ρ Float P) (t : Run Float P × Session ρ) :
      Ensures (evaluateAll f >>= fun _ => updateBest) t fun _ u => u.1.streams = t.1.streams := by
    rw [ensures_bind]
    refine (evaluateAll_streams f).mono fun _ t₁ same => updateBest_ensures.mono fun _ t₂ folded => ?_
    rw [folded.1, ← same]
  rw [begin, begin, populate, populate, cold, uniform, cold', uniform']
  apply together_bind
  refine (Initial.populate_together size dim streams).mono fun _ _ t t' streams => ?_
  refine (together_of_ensures (quiet e t) (quiet e' t')).mono ?_
  rintro _ _ u u' ⟨same, same'⟩ id
  rw [same, same', streams id]

end Opening

namespace Strategy

/-- A run from the making of its first population to the end of a number of generations. -/
def course (settings : Settings) (o : Opening σ) (evaluator : Evaluator σ Float P) (k : Nat) :
    Search σ Float P Unit := do
  o.begin evaluator
  prepare settings
  rounds settings evaluator k

variable {settings : Settings} {e : Evaluator σ Float P} {e' : Evaluator τ Float P}
  {s : Run Float P × Session σ} {s' : Run Float P × Session τ}

theorem rounds_together {n : Nat} (paced : Paced settings w w') (large : 0 < n) (width : 1 ≤ w)
    (width' : 1 ≤ w') (total : e.Total d w) (total' : e'.Total d w')
    (h : s.1.Abreast n d w w' s'.1) (k : Nat) :
    Together (rounds settings e k) (rounds settings e' k) s s'
      fun _ _ t t' => t.1.Abreast n d w w' t'.1 := by
  induction k with
  | zero => exact together_pure h
  | succ k ih =>
    rw [rounds, rounds]
    apply together_bind
    exact ih.mono fun _ _ t t' h =>
      generation_together paced large width width' total total' h

/-- One of the runs that are compared: it has as many individuals as the settings say, starts from
uniform rows, and searches with an objective that answers every point with `w` values, however
batches are cut into chunks. -/
structure Contender (settings : Settings) (d w : Nat) (o : Opening σ) (run : Run Float Value)
    (p : Problem σ) (g : Row Float → Except Raised Value) (backend : Backend σ) : Prop where
  started : ∃ fresh, o.start fresh = .ok run
  size : run.popSize = settings.popSize
  dim : run.dim = d
  cold : o.population = none
  uniform : o.initializer.getD .uniform = .uniform
  answers : p.Answers g
  total : p.Total g d w
  chunked : ∃ workers chunk, backend.InChunks (.problem p) workers chunk

section Contender

variable {o : Opening σ} {run : Run Float Value} {p : Problem σ}
  {g : Row Float → Except Raised Value} {backend : Backend σ}

theorem Contender.answered (h : Contender settings d w o run p g backend) :
    Evaluator.Total d w (backend.evaluate (.problem p)) := by
  obtain ⟨_, _, chunked⟩ := h.chunked
  exact Backend.total_of_inChunks h.answers h.total chunked

theorem Contender.underway (h : Contender settings d w o run p g backend) {session : Session σ}
    {s : Run Float Value × Session σ}
    (begun : (o.begin (backend.evaluate (.problem p))).run (run, session) = (.ok (), s)) :
    s.1.Underway settings.popSize d w := by
  obtain ⟨fresh, started⟩ := h.started
  have total : Evaluator.Total run.dim w (backend.evaluate (.problem p)) := by
    rw [h.dim]
    exact h.answered
  have warm : o.population.isSome = true → s.1.nObj = some (w : Int) := by simp [h.cold]
  have underway := Opening.underway_of_opened total started begun warm
  rwa [h.size, h.dim] at underway

/-- A contender whose box can be sampled and whose front may have its limit comes to the end of any
number of generations. -/
theorem Contender.finishes (h : Contender settings d w o run p g backend)
    (checked : settings.Checked) (short : d ≤ 2 ^ 63) (width : 1 ≤ w) (sound : o.Sound w)
    (session : Session σ) (k : Nat) :
    ∃ s, (course settings o (backend.evaluate (.problem p)) k).run (run, session) =
      (.ok (), s) := by
  obtain ⟨fresh, started⟩ := h.started
  obtain ⟨n, seed, large, start⟩ := Opening.start_eq started
  have dim : o.bounds.dim = d := by
    rw [← h.dim, start]
    rfl
  have donors : ∀ de, settings = .differential de → de.mutant.donors + 1 ≤ settings.popSize := by
    rintro de rfl
    exact checked.donors_lt_popSize
  have begins : Ends (o.begin (backend.evaluate (.problem p))) (run, session) (fun _ => False)
      fun _ _ => True :=
    Opening.begin_succeeds sound h.cold h.uniform (by rw [dim]; exact h.answered) width
      (by omega) start
  have ends : Ends (course settings o (backend.evaluate (.problem p)) k) (run, session)
      (fun _ => False) fun _ _ => True := by
    rw [course, ends_bind]
    apply (begins.and_ensures fun _ _ begun => h.underway begun).imp
    rintro _ s₁ ⟨-, underway⟩
    rw [ends_bind]
    apply (prepare_proceeds underway settings).imp
    intro _ s₂ prepared
    apply (rounds_proceed h.answered width checked.two_le_popSize short donors prepared k).imp
    exact fun _ _ _ => trivial
  obtain ⟨_, s, ran, -⟩ := exists_of_ends ends
  exact ⟨s, ran⟩

end Contender

/-- What is drawn from the streams does not depend on what is optimised. Two runs with the same
settings, seed and dimension start from uniform rows, each in its own box and with its own
objective; the number of objectives is arbitrary, and need not be the same, for the genetic
strategy, and one for differential evolution, the swarm and the teaching strategy. Then after every
generation all their streams, the driver's and everybody's own, are in the same states. Such runs
come to the end of any number of generations, provided that the box can be sampled: its intervals
have finite lengths, none of which is the negative zero. -/
theorem streams_keep_pace {o : Opening σ} {o' : Opening τ} {run run' : Run Float Value}
    {p : Problem σ} {p' : Problem τ} {g g' : Row Float → Except Raised Value}
    {backend : Backend σ} {backend' : Backend τ} (checked : settings.Checked)
    (paced : Paced settings w w') (short : d ≤ 2 ^ 63) (width : 1 ≤ w) (width' : 1 ≤ w')
    (first : Contender settings d w o run p g backend)
    (second : Contender settings d w' o' run' p' g' backend')
    (seed : run.streams.seed = run'.streams.seed) (session : Session σ) (session' : Session τ)
    (k : Nat) :
    (∀ s s',
      (course settings o (backend.evaluate (.problem p)) k).run (run, session) = (.ok (), s) →
      (course settings o' (backend'.evaluate (.problem p')) k).run (run', session') = (.ok (), s') →
      ∀ id, s.1.streams.get id = s'.1.streams.get id) ∧
    (o.Sound w → ∃ s,
      (course settings o (backend.evaluate (.problem p)) k).run (run, session) = (.ok (), s)) ∧
    (o'.Sound w' → ∃ s',
      (course settings o' (backend'.evaluate (.problem p')) k).run (run', session') =
        (.ok (), s')) := by
  refine ⟨?_, fun sound => first.finishes checked short width sound session k,
    fun sound => second.finishes checked short width' sound session' k⟩
  have streams : run.SameStreams run' := by
    obtain ⟨_, started⟩ := first.started
    obtain ⟨_, started'⟩ := second.started
    obtain ⟨n, _, -, rfl⟩ := Opening.start_eq started
    obtain ⟨n', _, -, rfl⟩ := Opening.start_eq started'
    intro id
    obtain rfl : _ = _ := seed
    rfl
  have together : Together (course settings o (backend.evaluate (.problem p)) k)
      (course settings o' (backend'.evaluate (.problem p')) k) (run, session) (run', session')
      fun _ _ s s' => s.1.Abreast settings.popSize d w w' s'.1 := by
    have size : run'.popSize = run.popSize := by rw [first.size, second.size]
    have dim : run.dim = run'.dim := by rw [first.dim, second.dim]
    have large := checked.two_le_popSize
    rw [course, course]
    apply together_bind
    refine ((Opening.begin_together _ _ first.cold first.uniform second.cold second.uniform size dim
      streams).and_ensures (fun _ _ begun => first.underway begun)
      (fun _ _ begun => second.underway begun)).mono ?_
    rintro _ _ t t' ⟨streams, underway, underway'⟩
    apply together_bind
    refine (prepare_together settings ⟨underway, underway', streams⟩).mono fun _ _ u u' h => ?_
    exact rounds_together paced (by omega) width width' first.answered second.answered h k
  intro s s' ran ran'
  exact (together () () s s' ran ran').streams

end Strategy

/-- The interval from minus one to three. -/
def wideInterval : Bounds Float :=
  ⟨#[-1.0], #[3.0], rfl, by decide, by decide +kernel, by decide +kernel⟩

/-- The square of a number. -/
def plainSquareOf (x : Row Float) : Except Raised Value :=
  .ok (.float (x.gene 0 * x.gene 0))

def plainSquare : Problem Unit where
  bounds := wideInterval
  objective x := ExceptT.mk fun s => (plainSquareOf x, s)
  nObj := none
  name := "square"
  returnsProduct := false

/-- Four uniform points of an interval. -/
def uniformOpening (bounds : Bounds Float) : Opening Unit where
  bounds
  nObj := none
  popSize := .int 4
  seed := .int 7
  frontLimit := .absent
  initializer := none
  population := none

namespace Strategy

theorem plainSquare_answers : plainSquare.Answers plainSquareOf :=
  fun _ _ => rfl

theorem plainSquare_total : plainSquare.Total plainSquareOf 1 1 :=
  ⟨nofun, fun _ _ => ⟨_, _, rfl, rfl⟩⟩

/-- After a thousand generations of the genetic strategy the streams are where they would be with
another box, another objective, and one more of them. -/
theorem streams_keep_pace_wide :
    let settings : Settings := .genetic { popSize := 4 }
    ∃ (run run' : Run Float Value) (s s' : Run Float Value × Session Unit),
      (uniformOpening .unitInterval).start 0 = .ok run ∧
      (uniformOpening wideInterval).start 0 = .ok run' ∧
      (course settings (uniformOpening .unitInterval)
        (Backend.serial.evaluate (.problem bothEnds)) 1000).run (run, ⟨(), #[]⟩) = (.ok (), s) ∧
      (course settings (uniformOpening wideInterval)
        (Backend.serial.evaluate (.problem plainSquare)) 1000).run (run', ⟨(), #[]⟩) =
          (.ok (), s') ∧
      ∀ id, s.1.streams.get id = s'.1.streams.get id := by
  intro settings
  have checked : settings.Checked := ⟨[("pop_size", .int 4)], rfl⟩
  have first : Contender settings 1 2 (uniformOpening .unitInterval)
      (.start .unitInterval 4 none .absent 7) bothEnds bothEndsOf .serial :=
    ⟨⟨0, rfl⟩, rfl, rfl, rfl, rfl, bothEnds_answers, bothEnds_total,
      1, none, Backend.serial_inChunks bothEnds_answers⟩
  have second : Contender settings 1 1 (uniformOpening wideInterval)
      (.start wideInterval 4 none .absent 7) plainSquare plainSquareOf .serial :=
    ⟨⟨0, rfl⟩, rfl, rfl, rfl, rfl, plainSquare_answers, plainSquare_total,
      1, none, Backend.serial_inChunks plainSquare_answers⟩
  have sound : (uniformOpening .unitInterval).Sound 2 :=
    ⟨by decide +kernel, by decide +kernel, nofun, .inr ⟨none, rfl⟩⟩
  have sound' : (uniformOpening wideInterval).Sound 1 :=
    ⟨by decide +kernel, by decide +kernel, nofun, .inl rfl⟩
  obtain ⟨same, finishes, finishes'⟩ := streams_keep_pace checked (.genetic _ 2 1) (by decide)
    (by decide) (by decide) first second rfl ⟨(), #[]⟩ ⟨(), #[]⟩ 1000
  obtain ⟨s, ran⟩ := finishes sound
  obtain ⟨s', ran'⟩ := finishes' sound'
  exact ⟨_, _, s, s', rfl, rfl, ran, ran', same s s' ran ran'⟩

end Strategy

end BoxSearch
