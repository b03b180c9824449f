import BoxSearch.Random.Streams

/-!
What a shuffle leaves: the same entries in another order, whatever the stream is.
-/

namespace BoxSearch

variable {β : Type}

namespace Random

theorem perm_swapIfInBounds (xs : Array β) (i j : Nat) : (xs.swapIfInBounds i j).Perm xs := by
  rw [Array.swapIfInBounds]
  split
  case isTrue first =>
    split
    case isTrue second => exact Array.swap_perm first second
    case isFalse => exact .refl xs
  case isFalse => exact .refl xs

/-- Swaps leave the entries, wherever the places are that are swapped. -/
theorem perm_swaps (place : Nat → Generator → Nat × Generator) (places : List Nat)
    (acc : Array β × Generator) :
    (places.foldl (fun (acc : Array β × Generator) i =>
      (acc.1.swapIfInBounds i (place i acc.2).1, (place i acc.2).2)) acc).1.Perm acc.1 := by
  induction places generalizing acc with
  | nil => exact .refl acc.1
  | cons i places ih => exact (ih _).trans (perm_swapIfInBounds _ _ _)

theorem perm_shuffleWith (place : Nat → Generator → Nat × Generator) (xs : Array β)
    (g : Generator) : (shuffleWith place xs g).1.Perm xs :=
  perm_swaps place (descending xs.size) (xs, g)

end Random

/-- A shuffled array has the same entries as before. -/
theorem perm_of_run_shuffled {streams : Streams} {id : StreamId} {xs ys : Array β}
    (h : (streams.run id (Draw.shuffled xs)).1 = .ok ys) : ys.Perm xs := by
  have shuffled : (Random.shuffle xs (streams.get id)).1 = ys := Except.ok.inj h
  rw [← shuffled]
  exact Random.perm_shuffleWith Random.masked xs (streams.get id)

end BoxSearch
