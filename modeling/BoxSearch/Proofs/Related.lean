import BoxSearch.Scalar.Basic
import Mathlib.Data.List.Forall2

/-!
Arrays that are related entry by entry.

Two arrays are related if they have the same length and the entries in each place are related. Every
operation that the search uses on arrays keeps them related, and answers the same whenever it does
not look beyond the relation.
-/

namespace BoxSearch

variable {β γ β' γ' ι κ ι' κ' : Type} {S : β → γ → Prop} {T : β' → γ' → Prop}
  {xs : Array β} {ys : Array γ}

/-- The arrays have the same length, and entries in the same place are related. -/
def Related (S : β → γ → Prop) (xs : Array β) (ys : Array γ) : Prop :=
  List.Forall₂ S xs.toList ys.toList

/-- Two loops over one list that keep their states related. -/
theorem related_foldl {f : β → ι → β} {g : γ → ι → γ}
    (step : ∀ c d i, S c d → S (f c i) (g d i)) (l : List ι) {c : β} {d : γ} (first : S c d) :
    S (l.foldl f c) (l.foldl g d) := by
  induction l generalizing c d with
  | nil => exact first
  | cons i l ih => exact ih (step c d i first)

/-- Lists with their places. -/
theorem forall₂_zipIdx {l : List β} {l' : List γ} (h : List.Forall₂ S l l') (n : Nat) :
    List.Forall₂ (fun p q => S p.1 q.1 ∧ p.2 = q.2) (l.zipIdx n) (l'.zipIdx n) := by
  induction h generalizing n with
  | nil => exact .nil
  | cons first _ ih => exact .cons ⟨first, rfl⟩ (ih (n + 1))

theorem isSome_eq_of_rel {a : Option β} {b : Option γ} (h : Option.Rel S a b) :
    a.isSome = b.isSome := by
  cases h <;> rfl

theorem rel_map {a : Option β} {b : Option γ} {f : β → β'} {g : γ → γ'} (h : Option.Rel S a b)
    (step : ∀ x y, S x y → T (f x) (g y)) : Option.Rel T (a.map f) (b.map g) := by
  cases h with
  | none => exact .none
  | some related => exact .some (step _ _ related)

namespace Related

theorem refl {S : β → β → Prop} (h : ∀ x, S x x) (xs : Array β) : Related S xs xs :=
  List.forall₂_same.mpr fun x _ => h x

theorem mono {S' : β → γ → Prop} (h : Related S xs ys) (imp : ∀ x y, S x y → S' x y) :
    Related S' xs ys :=
  List.Forall₂.imp imp h

theorem size_eq (h : Related S xs ys) : xs.size = ys.size := by
  simpa using List.Forall₂.length_eq h

theorem getElem?_rel (h : Related S xs ys) (i : Nat) : Option.Rel S xs[i]? ys[i]? := by
  have list {l : List β} {l' : List γ} (h : List.Forall₂ S l l') :
      Option.Rel S l[i]? l'[i]? := by
    induction h generalizing i with
    | nil => exact .none
    | cons first rest ih =>
      cases i with
      | zero => exact .some first
      | succ i => simpa using ih i
  simpa using list h

theorem getD (h : Related S xs ys) {d : β} {e : γ} (fallback : S d e) (i : Nat) :
    S (xs.getD i d) (ys.getD i e) := by
  have found := h.getElem?_rel i
  rw [Array.getD_eq_getD_getElem?, Array.getD_eq_getD_getElem?]
  generalize xs[i]? = x at found
  generalize ys[i]? = y at found
  cases found with
  | some related => exact related
  | none => exact fallback

theorem getElem (h : Related S xs ys) (i : Nat) (hx : i < xs.size) (hy : i < ys.size) :
    S xs[i] ys[i] := by
  simpa using List.Forall₂.get h (i := i) (by simpa using hx) (by simpa using hy)

theorem of_getElem (size : xs.size = ys.size)
    (h : ∀ i (hx : i < xs.size) (hy : i < ys.size), S xs[i] ys[i]) : Related S xs ys :=
  List.forall₂_of_length_eq_of_get (by simpa using size) fun i hx hy => by
    simpa using h i (by simpa using hx) (by simpa using hy)

theorem trans {S : β → β → Prop} (h : ∀ x y z, S x y → S y z → S x z) {xs ys zs : Array β}
    (first : Related S xs ys) (second : Related S ys zs) : Related S xs zs := by
  apply of_getElem (first.size_eq.trans second.size_eq)
  intro i hx hz
  have hy : i < ys.size := first.size_eq ▸ hx
  exact h _ _ _ (first.getElem i hx hy) (second.getElem i hy hz)

theorem map {f : β → β'} {g : γ → γ'} (h : Related S xs ys) (step : ∀ x y, S x y → T (f x) (g y)) :
    Related T (xs.map f) (ys.map g) := by
  rw [Related, Array.toList_map, Array.toList_map]
  exact List.rel_map (fun _ _ related => step _ _ related) h

/-- Arrays made by rules for the same places. -/
theorem tabulate {n : Nat} {f : Nat → β} {g : Nat → γ} (h : ∀ i < n, S (f i) (g i)) :
    Related S ((Array.range n).map f) ((Array.range n).map g) := by
  apply of_getElem (by simp)
  intro i hx hy
  simpa using h i (by simpa using hx)

theorem replicate (n : Nat) {x : β} {y : γ} (h : S x y) :
    Related S (Array.replicate n x) (Array.replicate n y) := by
  apply of_getElem (by simp)
  intro i hx hy
  simpa using h

theorem pair {x x' : β} {y y' : γ} (first : S x y) (second : S x' y') :
    Related S #[x, x'] #[y, y'] :=
  List.Forall₂.cons first (.cons second .nil)

theorem push (h : Related S xs ys) {x : β} {y : γ} (last : S x y) :
    Related S (xs.push x) (ys.push y) := by
  rw [Related, Array.toList_push, Array.toList_push]
  exact List.rel_append h (.cons last .nil)

theorem foldl {f : β' → β → β'} {g : γ' → γ → γ'} (h : Related S xs ys)
    (step : ∀ c d x y, T c d → S x y → T (f c x) (g d y)) {c : β'} {d : γ'} (first : T c d) :
    T (xs.foldl f c) (ys.foldl g d) := by
  rw [← Array.foldl_toList, ← Array.foldl_toList]
  exact List.rel_foldl (P := T) (R := S) (fun _ _ state _ _ entry => step _ _ _ _ state entry)
    first h

theorem filter {p : β → Bool} {q : γ → Bool} (h : Related S xs ys)
    (same : ∀ x y, S x y → p x = q y) : Related S (xs.filter p) (ys.filter q) := by
  rw [Related, Array.toList_filter, Array.toList_filter]
  exact List.rel_filter (fun x y related => by simp [same x y related]) h

theorem any_eq {p : β → Bool} {q : γ → Bool} (h : Related S xs ys)
    (same : ∀ x y, S x y → p x = q y) : xs.any p = ys.any q := by
  have list {l : List β} {l' : List γ} (h : List.Forall₂ S l l') : l.any p = l'.any q := by
    induction h with
    | nil => rfl
    | cons first _ ih => simp only [List.any_cons, same _ _ first, ih]
  rw [← Array.any_toList, ← Array.any_toList]
  exact list h

theorem isEmpty_eq (h : Related S xs ys) : xs.isEmpty = ys.isEmpty := by
  rw [Array.isEmpty, Array.isEmpty, h.size_eq]

theorem eraseIdxIfInBounds (h : Related S xs ys) (i : Nat) :
    Related S (xs.eraseIdxIfInBounds i) (ys.eraseIdxIfInBounds i) := by
  rw [Related, Array.toList_eraseIdxIfInBounds, Array.toList_eraseIdxIfInBounds,
    List.eraseIdx_eq_take_drop_succ, List.eraseIdx_eq_take_drop_succ]
  exact List.rel_append (List.forall₂_take i h) (List.forall₂_drop (i + 1) h)

theorem extract (h : Related S xs ys) (i j : Nat) :
    Related S (xs.extract i j) (ys.extract i j) := by
  rw [Related, Array.toList_extract, Array.toList_extract, List.extract_eq_take_drop,
    List.extract_eq_take_drop]
  exact List.forall₂_take _ (List.forall₂_drop _ h)

theorem setIfInBounds (h : Related S xs ys) (i : Nat) {x : β} {y : γ} (new : S x y) :
    Related S (xs.setIfInBounds i x) (ys.setIfInBounds i y) := by
  apply of_getElem (by simpa using h.size_eq)
  intro j hx hy
  simp only [Array.size_setIfInBounds] at hx hy
  rw [Array.getElem_setIfInBounds hx, Array.getElem_setIfInBounds hy]
  split
  · exact new
  · exact h.getElem j hx hy

theorem modify (h : Related S xs ys) (i : Nat) {f : β → β} {g : γ → γ}
    (step : ∀ x y, S x y → S (f x) (g y)) : Related S (xs.modify i f) (ys.modify i g) := by
  apply of_getElem (by simpa using h.size_eq)
  intro j hx hy
  simp only [Array.size_modify] at hx hy
  rw [Array.getElem_modify, Array.getElem_modify]
  split
  · exact step _ _ (h.getElem j hx hy)
  · exact h.getElem j hx hy

theorem zipWith {Q : ι → κ → Prop} {xs' : Array ι} {ys' : Array κ}
    {f : β → ι → β'} {g : γ → κ → γ'} (h : Related S xs ys) (h' : Related Q xs' ys')
    (step : ∀ x y a b, S x y → Q a b → T (f x a) (g y b)) :
    Related T (Array.zipWith f xs xs') (Array.zipWith g ys ys') := by
  apply of_getElem (by simp [h.size_eq, h'.size_eq])
  intro i hx hy
  simp only [Array.size_zipWith, Nat.lt_min] at hx hy
  simp only [Array.getElem_zipWith]
  exact step _ _ _ _ (h.getElem i hx.1 hy.1) (h'.getElem i hx.2 hy.2)

end Related

end BoxSearch
