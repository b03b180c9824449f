import BoxSearch.Tensor.Basic
import BoxSearch.Proofs.Scalar.Order

/-!
Cutting entries into rows, and laying rows out as entries.

Rows of one width survive being laid out and cut again. So an array made of rows is as good as the
rows themselves. An array that is read from nested lists has an entry for every place of its shape.
-/

namespace BoxSearch

/-- What lies in a part of an array lies in the array. -/
theorem mem_of_mem_extract {β : Type} {xs : Array β} {start stop : Nat} {x : β}
    (h : x ∈ xs.extract start stop) : x ∈ xs := by
  obtain ⟨i, -, rfl⟩ := Array.mem_extract_iff_getElem.mp h
  exact Array.getElem_mem _

namespace Tensor

variable {α : Type}

@[simp]
theorem size_cut (count width : Nat) (entries : Array α) :
    (cut count width entries).size = count := by
  simp [cut]

/-- In a list of lists of one length, laid end to end, each of them is where it should be. -/
private theorem drop_take_flatten {width : Nat} {lists : List (List α)}
    (even : ∀ l ∈ lists, l.length = width) {i : Nat} (hi : i < lists.length) :
    (lists.flatten.drop (i * width)).take width = lists[i] := by
  induction lists generalizing i with
  | nil => cases hi
  | cons l rest ih =>
    have first : l.length = width := even l List.mem_cons_self
    have evenRest : ∀ m ∈ rest, m.length = width := fun m hm => even m (List.mem_cons_of_mem _ hm)
    rw [List.flatten_cons]
    cases i with
    | zero =>
      rw [Nat.zero_mul, List.drop_zero, List.take_left' first]
      rfl
    | succ i =>
      have hi' : i < rest.length := by simpa using hi
      have skipped : (i + 1) * width = l.length + i * width := by rw [first, Nat.succ_mul]; omega
      rw [skipped, List.drop_length_add_append, ih evenRest hi']
      rfl

/-- Rows of one width come back when their entries are cut again. -/
theorem cut_flatten {width : Nat} {rows : Rows α} (even : ∀ r ∈ rows.toList, r.size = width) :
    cut rows.size width rows.flatten = rows := by
  apply Array.ext
  · simp
  · intro i hi hi'
    have evenLists : ∀ l ∈ rows.toList.map Array.toList, l.length = width := by
      intro l hl
      obtain ⟨r, hr, rfl⟩ := List.mem_map.mp hl
      exact even r hr
    have found := drop_take_flatten evenLists (i := i) (by simpa using hi')
    have entries : rows.flatten.toList = (rows.toList.map Array.toList).flatten :=
      Array.toList_flatten
    have length : (i + 1) * width - i * width = width := by rw [Nat.succ_mul]; omega
    apply Array.toList_inj.mp
    simp only [cut, Array.getElem_map, Array.getElem_range, Array.toList_extract, entries,
      List.extract_eq_take_drop, length, found]
    simp

theorem rows?_ofRows {width : Nat} {rows : Rows α} (even : ∀ r ∈ rows.toList, r.size = width) :
    (ofRows width rows).rows? = some (width, rows) := by
  simp [rows?, ofRows, cut_flatten even]

theorem size_flatten {width : Nat} {rows : Rows α} (even : ∀ r ∈ rows.toList, r.size = width) :
    rows.flatten.size = rows.size * width := by
  have sizes : rows.map Array.size = Array.replicate rows.size width := by
    apply Array.ext
    · simp
    · intro i hi hi'
      have inside : i < rows.size := by simpa using hi
      simpa using even rows[i] (Array.mem_toList_iff.mpr (Array.getElem_mem inside))
  rw [Array.size_flatten, sizes]
  simp

theorem rowsExactly_ofRows {width : Nat} {rows : Rows α} (even : ∀ r ∈ rows.toList, r.size = width) :
    (ofRows width rows).rowsExactly rows.size width = .ok rows := by
  simp [rowsExactly, ofRows, size_flatten even, cut_flatten even]

theorem size_rows? {t : Tensor α} {width count : Nat} {rows : Rows α} {rest : List Nat}
    (h : t.rows? = some (width, rows)) (shape : t.shape = count :: rest) : rows.size = count := by
  rw [rows?] at h
  split at h
  case h_1 count' width' hshape =>
    rw [shape] at hshape
    cases hshape
    cases h
    exact size_cut _ _ _
  case h_2 => cases h

theorem size_rowsCount {t : Tensor α} {n width : Nat} {rows : Rows α}
    (h : t.rowsCount n = .ok (width, rows)) : rows.size = n := by
  rw [rowsCount] at h
  by_cases hn : (n == 0) = true
  · rw [if_pos hn] at h
    cases h
  rw [if_neg hn] at h
  by_cases even : (t.entries.size % n != 0) = true
  · rw [if_pos even] at h
    cases h
  · rw [if_neg even] at h
    cases h
    exact size_cut _ _ _

theorem size_rowsExactly {t : Tensor α} {n width : Nat} {rows : Rows α}
    (h : t.rowsExactly n width = .ok rows) : rows.size = n := by
  rw [rowsExactly] at h
  by_cases exact_ : (t.entries.size == n * width) = true
  · rw [if_pos exact_] at h
    cases h
    exact size_cut _ _ _
  · rw [if_neg exact_] at h
    cases h

theorem places_cons (count : Nat) (shape : List Nat) :
    places (count :: shape) = count * places shape := by
  have start : List.foldl (· * ·) (count * 1) shape = count * List.foldl (· * ·) 1 shape :=
    List.foldl_assoc
  rw [places, List.foldl_cons, Nat.one_mul]
  rw [Nat.mul_one] at start
  exact start

/-- Rows that are cut from enough entries have the width that was asked for. -/
theorem even_cut {count width : Nat} {entries : Array α} (enough : count * width ≤ entries.size) :
    ∀ r ∈ (cut count width entries).toList, r.size = width := by
  intro r hr
  obtain ⟨i, hi, rfl⟩ := List.mem_iff_getElem.mp hr
  have below : i < count := by simpa using hi
  have last : (i + 1) * width ≤ count * width := Nat.mul_le_mul_right _ below
  have length : (i + 1) * width - i * width = width := by rw [Nat.succ_mul]; omega
  simp only [cut, Array.getElem_toList, Array.getElem_map, Array.getElem_range, Array.size_extract]
  omega

/-- The rows of an array with an entry for every place have its width. -/
theorem even_rows? {t : Tensor α} {width : Nat} {rows : Rows α}
    (full : t.entries.size = places t.shape)
    (h : t.rows? = some (width, rows)) : ∀ r ∈ rows.toList, r.size = width := by
  rw [rows?] at h
  split at h
  case h_1 count width' shape =>
    cases h
    have enough : t.entries.size = count * width := by
      rw [full, shape, places_cons, places_cons, places, List.foldl_nil, Nat.mul_one]
    exact even_cut (by omega)
  case h_2 => cases h

end Tensor

namespace Value

open Tensor (places places_cons)

theorem length_entry {number : Except Error Float} {xs : List Float}
    (h : number.map ([·]) = .ok xs) : xs.length = 1 := by
  cases number with
  | error e => cases h
  | ok x =>
    cases h
    rfl

theorem entriesOf_cons {first : Value} {rest : List Value} {xs : List Float}
    (h : entriesOf (first :: rest) = .ok xs) :
    ∃ here more, first.entries = .ok here ∧ entriesOf rest = .ok more ∧ xs = here ++ more := by
  rw [entriesOf] at h
  cases here : first.entries with
  | error e =>
    rw [here] at h
    cases h
  | ok ys =>
    cases more : entriesOf rest with
    | error e =>
      rw [here, more] at h
      cases h
    | ok zs =>
      rw [here, more] at h
      cases h
      exact ⟨ys, zs, rfl, rfl, rfl⟩

mutual

/-- Nested lists have one entry for every place of their shape. -/
theorem length_entries {v : Value} {shape : List Nat} {xs : List Float}
    (shaped : v.shape? = some shape) (h : v.entries = .ok xs) : xs.length = places shape := by
  match v with
  | .list items => exact length_entriesOf_itemsShape shaped h
  | .tuple items => exact length_entriesOf_itemsShape shaped h
  | .absent | .bool _ | .int _ | .float _ | .text _ | .record _ | .object .. =>
    cases shaped
    simp only [entries] at h
    exact length_entry h

theorem length_entriesOf_itemsShape {items : List Value} {shape : List Nat} {xs : List Float}
    (shaped : itemsShape? items = some shape) (h : entriesOf items = .ok xs) :
    xs.length = places shape := by
  match items with
  | [] =>
    cases shaped
    cases h
    rfl
  | first :: rest =>
    obtain ⟨here, more, hhere, hmore, rfl⟩ := entriesOf_cons h
    rw [itemsShape?] at shaped
    cases inner : first.shape? with
    | none =>
      rw [inner] at shaped
      cases shaped
    | some shape' =>
      rw [inner] at shaped
      dsimp only at shaped
      split at shaped
      case isFalse => cases shaped
      case isTrue even =>
        cases shaped
        have one := length_entries inner hhere
        have others := length_entriesOf even hmore
        rw [List.length_append, one, others, places_cons, Nat.succ_mul, Nat.add_comm]

theorem length_entriesOf {items : List Value} {shape : List Nat} {xs : List Float}
    (shaped : allShaped shape items = true) (h : entriesOf items = .ok xs) :
    xs.length = items.length * places shape := by
  match items with
  | [] =>
    cases h
    simp
  | first :: rest =>
    obtain ⟨here, more, hhere, hmore, rfl⟩ := entriesOf_cons h
    rw [allShaped, Bool.and_eq_true] at shaped
    obtain ⟨same, even⟩ := shaped
    cases inner : first.shape? with
    | none =>
      rw [inner] at same
      cases same
    | some shape' =>
      rw [inner] at same
      have shape : shape' = _ := eq_of_beq same
      rw [shape] at inner
      have one := length_entries inner hhere
      have others := length_entriesOf even hmore
      rw [List.length_append, one, others, List.length_cons, Nat.succ_mul, Nat.add_comm]

end

theorem size_toTensor {v : Value} {t : Tensor Float} (h : v.toTensor = .ok t) :
    t.entries.size = places t.shape := by
  rw [toTensor] at h
  cases shaped : v.shape? with
  | none =>
    rw [shaped] at h
    cases h
  | some shape =>
    cases found : v.entries with
    | error e =>
      rw [shaped, found] at h
      cases h
    | ok xs =>
      rw [shaped, found] at h
      cases h
      exact length_entries shaped found

end Value

end BoxSearch
