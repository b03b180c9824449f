/-!
Which of a list of names a misspelt one may stand for.

Two texts are compared by their matching blocks: the longest common substring, and then the same
again to its left and to its right. Twice the matched length over the sum of the lengths is their
similarity; the three most similar names above a cutoff are proposed.
-/

namespace BoxSearch.Text

/-- A block of `size` equal characters starting at `left` in one text and `right` in the other. -/
structure Block where
  left : Nat
  right : Nat
  size : Nat
deriving Repr, BEq

/-- The length of the common start of two texts. -/
def commonStart : List Char → List Char → Nat
  | a :: as, b :: bs => if a == b then commonStart as bs + 1 else 0
  | _, _ => 0

/-- The longest common substring; the leftmost one in the first text on a tie, then the leftmost
one in the second. -/
def longestBlock (a b : List Char) : Block :=
  (List.range a.length).foldl (fun best i =>
    (List.range b.length).foldl (fun best j =>
      let size := commonStart (a.drop i) (b.drop j)
      if best.size < size then ⟨i, j, size⟩ else best) best) ⟨0, 0, 0⟩

/-- The number of characters that lie in matching blocks. -/
def matchedLength (a b : List Char) : Nat :=
  go (a.length + 1) a b
where
  /-- Each block found shortens both sides, so `fuel` above the length of `a` never runs out. -/
  go : Nat → List Char → List Char → Nat
    | 0, _, _ => 0
    | fuel + 1, a, b =>
      let block := longestBlock a b
      if block.size == 0 then 0
      else block.size
        + go fuel (a.take block.left) (b.take block.right)
        + go fuel (a.drop (block.left + block.size)) (b.drop (block.right + block.size))

/-- Twice the matched length over the sum of the lengths; two empty texts are equal. -/
def similarity (a b : String) : Float :=
  let total := a.toList.length + b.toList.length
  if total == 0 then 1.0
  else (2.0 * (matchedLength a.toList b.toList).toFloat) / total.toFloat

/-- Scored names in the order they are proposed: the most similar first, and of two equally
similar ones the one that is later in the order of characters. -/
private def before (x y : Float × String) : Bool :=
  if x.1 == y.1 then y.2 ≤ x.2 else y.1 < x.1

/-- At most three of the `options` whose similarity to `name` is 0.6 or more, best first. -/
def closeMatches (name : String) (options : List String) : List String :=
  let scored := options.filterMap fun option =>
    let score := similarity option name
    if 0.6 ≤ score then some (score, option) else none
  ((scored.mergeSort before).take 3).map (·.2)

end BoxSearch.Text
