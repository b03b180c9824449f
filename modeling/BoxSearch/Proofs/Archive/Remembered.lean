import BoxSearch.Proofs.Archive.Losses

/-!
Distances that a front remembers are those of its present members.

Crowding distances are remembered from one question to the next. A point that enters makes the front
forget them, before the front looks for a member to give up and again after that member has gone.
So a question asked at any time is answered as if there were no memory.
-/

namespace BoxSearch

open Scalar OrderedScalar

namespace Front

open Crowding

variable {P : Type} {s : Front Float P}

/-- Distances that are remembered are those of the present members. -/
def Current (s : Front Float P) : Prop :=
  s.crowding = none ∨ s.crowding = some (Crowding.distances s.nObj s.F)

theorem Current.distances_eq (h : s.Current) : s.distances = Crowding.distances s.nObj s.F := by
  rcases h with none | some
  · simp [distances, none]
  · simp [distances, some]

theorem current_measured (h : s.Current) : s.measured.Current :=
  .inr (congrArg some h.distances_eq)

/-- An offer that changes the membership forgets. -/
theorem current_take (h : s.Current) (p : Member Float P) : (s.take p).Current := by
  rcases loss_cases s p with ⟨same, -, -⟩ | ⟨-, ⟨same, -⟩ | ⟨i, hi, same, -⟩⟩ <;> rw [same]
  · exact h
  · exact .inl rfl
  · exact .inl rfl

theorem nObj_take (s : Front Float P) (p : Member Float P) : (s.take p).nObj = s.nObj := by
  rcases loss_cases s p with ⟨same, -, -⟩ | ⟨-, ⟨same, -⟩ | ⟨i, hi, same, -⟩⟩ <;> rw [same] <;> rfl

theorem current_foldl (points : List (Member Float P)) (h : s.Current) :
    (points.foldl take s).Current ∧ (points.foldl take s).nObj = s.nObj := by
  induction points generalizing s with
  | nil => exact ⟨h, rfl⟩
  | cons p points ih =>
    obtain ⟨current, objectives⟩ := ih (current_take h p)
    exact ⟨current, objectives.trans (nObj_take s p)⟩

/-- What an access does to a front: it hands over its points, or it has none. -/
theorem Access.run_cases (a : Access Float P) (s : Front Float P) :
    a.run s = a.points.foldl take s ∨ a.points = [] ∧ a.run s = s.measured := by
  cases a with
  | offer call =>
    left
    cases call with
    | one x f product => rfl
    | many X F products =>
      have batch := (foldl_offer (Call.many X F products).points ⟨s, 0, []⟩).1
      rw [Access.run, Call.run, offerMany_front]
      exact batch
  | crowding => exact .inr ⟨rfl, rfl⟩
  | sample => exact .inl rfl
  | representative => exact .inl rfl
  | tournament i j =>
    rw [Access.run]
    split
    · exact .inr ⟨rfl, rfl⟩
    · exact .inl rfl

theorem current_run (a : Access Float P) (h : s.Current) :
    (a.run s).Current ∧ (a.run s).nObj = s.nObj := by
  rcases a.run_cases s with handed | ⟨-, read⟩
  · rw [handed]
    exact current_foldl _ h
  · rw [read]
    exact ⟨current_measured h, rfl⟩

theorem current_foldl_run (accesses : List (Access Float P)) (h : s.Current) :
    (accesses.foldl Access.run s).Current ∧ (accesses.foldl Access.run s).nObj = s.nObj := by
  induction accesses generalizing s with
  | nil => exact ⟨h, rfl⟩
  | cons a rest ih =>
    obtain ⟨current, objectives⟩ := current_run a h
    obtain ⟨current', objectives'⟩ := ih current
    exact ⟨current', objectives'.trans objectives⟩

/-- What is given up is most crowded by distances that are computed anew. -/
theorem mostCrowded_losses (points : List (Member Float P)) :
    ∀ loss ∈ s.losses points, MostCrowded (Crowding.distances s.nObj loss.F) loss.place := by
  induction points generalizing s with
  | nil => simp [losses]
  | cons p points ih =>
    intro loss hloss
    rw [losses, List.mem_append, Option.mem_toList] at hloss
    rcases hloss with here | later
    · rcases loss_cases s p with ⟨-, -, none⟩ | ⟨-, ⟨-, none⟩ | ⟨i, hi, -, lost, -, crowded⟩⟩
      · rw [none] at here
        cases here
      · rw [none] at here
        cases here
      · rw [lost] at here
        cases here
        exact crowded
    · rw [← nObj_take s p]
      exact ih loss later

theorem mostCrowded_lossesOf (accesses : List (Access Float P)) (h : s.Current) :
    ∀ loss ∈ s.lossesOf accesses, MostCrowded (Crowding.distances s.nObj loss.F) loss.place := by
  induction accesses generalizing s with
  | nil => simp [lossesOf]
  | cons a rest ih =>
    intro loss hloss
    obtain ⟨current, objectives⟩ := current_run a h
    rcases List.mem_append.mp hloss with here | later
    · exact mostCrowded_losses _ loss here
    · rw [← objectives]
      exact ih current loss later

/-- After any offers and reads, a front remembers no distances or those of its present members. So
it answers with the latter, a tournament is decided by them, and all that it gave up on the way was
most crowded among the members of that moment. -/
theorem crowding_never_stale (nVar nObj : Nat) (limit : Option Nat)
    (accesses : List (Access Float P)) :
    let front := accesses.foldl Access.run (empty nVar nObj limit)
    let anew := Crowding.distances nObj front.F
    (front.crowding = none ∨ front.crowding = some anew) ∧
      front.distances = anew ∧
      (∀ (m : Type → Type) [Monad m] [MonadExceptOf Error m] [RandomSource m],
        (front.tournament : m (Row Float)) = do
          if front.members.isEmpty then throw (.misuse .emptyFront)
          let a ← RandomSource.below front.size
          let b ← RandomSource.below front.size
          return front.X.row (if a ≠ b ∧ anew.getD a zero < anew.getD b zero then b else a)) ∧
      ∀ loss ∈ (empty nVar nObj limit).lossesOf accesses,
        MostCrowded (Crowding.distances nObj loss.F) loss.place := by
  intro front anew
  have fresh : (empty nVar nObj limit : Front Float P).Current := .inl rfl
  obtain ⟨current, objectives⟩ := current_foldl_run accesses fresh
  have objectives : front.nObj = nObj := objectives
  have answered : front.distances = anew := by
    rw [current.distances_eq, objectives]
  refine ⟨?_, answered, ?_, mostCrowded_lossesOf accesses fresh⟩
  · rcases current with none | some
    · exact .inl none
    · exact .inr (some.trans (by rw [objectives]))
  · intro m _ _ _
    have winner (a b : Nat) : front.lessCrowded a b =
        if a ≠ b ∧ anew.getD a zero < anew.getD b zero then b else a := by
      rw [lessCrowded, answered]
      by_cases same : a = b <;> simp [same]
    simp only [tournament, winner]

/-- A front with room for one is asked for its distances before a second point comes. What is given
up is found by the distances of both: the newer one of two that are equally crowded. -/
theorem crowding_never_stale_single :
    let accesses : List (Access Float Nat) :=
      [.offer (.one #[0.0] #[0.0, 8.0] (some 1)), .crowding,
        .offer (.one #[1.0] #[8.0, 0.0] (some 2)), .tournament 0 0]
    let front := accesses.foldl Access.run (empty 1 2 (some 1))
    front.F = #[#[0.0, 8.0]] ∧ front.distances = Crowding.distances 2 front.F ∧
      ∃ loss, (empty 1 2 (some 1)).lossesOf accesses = [loss] ∧ loss.place = 1 ∧
        MostCrowded (Crowding.distances 2 loss.F) 1 := by
  intro accesses front
  obtain ⟨-, distances, -, crowded⟩ := crowding_never_stale 1 2 (some 1) accesses
  have places : ((empty 1 2 (some 1)).lossesOf accesses).map (·.place) = [1] := by decide +kernel
  obtain ⟨loss, only, place⟩ := List.map_eq_singleton_iff.mp places
  have least := crowded loss (only ▸ List.mem_singleton_self loss)
  rw [place] at least
  exact ⟨by decide +kernel, distances, loss, only, place, least⟩

end Front

end BoxSearch
