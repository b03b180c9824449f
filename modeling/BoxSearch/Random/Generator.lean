/-!
A stream of random words, determined by a seed and the number of the stream.

Seed and stream number are mixed into a pool of four 32 bit words, from which the state of a
permuted congruential generator of 128 bits is filled. A stream can be asked for in any order and
any number of times: it is a function of the two numbers alone.
-/

namespace BoxSearch.Random

/-- The state of a stream. Half words are served from one word at a time; `spare` is the upper half
that has not been served yet. -/
structure Generator where
  state : BitVec 128
  increment : BitVec 128
  spare : Option UInt32
deriving Repr, BEq, DecidableEq

/-- The 32 bit words of a number, lowest first; zero has one word. -/
def words (n : Nat) : List UInt32 :=
  if _h : n < 4294967296 then [n.toUInt32]
  else n.toUInt32 :: words (n / 4294967296)
termination_by n
decreasing_by omega

/-- What is mixed: the words of the seed, filled up to four, and then those of the stream. -/
def entropy (seed stream : Nat) : List UInt32 :=
  let first := words seed
  first ++ List.replicate (4 - first.length) 0 ++ words stream

/-- Mixes one word with the running multiplier `h`, which moves on. -/
def hashWord (h word : UInt32) : UInt32 × UInt32 :=
  let next := h * 0x931e8875
  let mixed := (word ^^^ h) * next
  (next, mixed ^^^ (mixed >>> 16))

/-- Joins a hashed word into a word of the pool. -/
def mixWords (x y : UInt32) : UInt32 :=
  let r := 0xca01f9dd * x - 0x4973f715 * y
  r ^^^ (r >>> 16)

/-- Four words being mixed, with the running multiplier. -/
structure Pool where
  multiplier : UInt32
  content : List UInt32

/-- The pool with `word`, hashed anew each time, mixed into the places that `places` selects. -/
def Pool.absorb (pool : Pool) (word : UInt32) (places : List Nat) : Pool :=
  places.foldl (fun pool place =>
    let (multiplier, hashed) := hashWord pool.multiplier word
    ⟨multiplier, pool.content.modify place (mixWords · hashed)⟩) pool

/-- The pool of a list of at least four words: the first four are hashed, each is mixed into the
three others, and every further word into all four. -/
def Pool.ofEntropy (entropy : List UInt32) : Pool :=
  let first := (entropy.take 4).foldl (fun (pool : Pool) word =>
    let (multiplier, hashed) := hashWord pool.multiplier word
    ⟨multiplier, pool.content ++ [hashed]⟩) ⟨0x43b0d7e5, []⟩
  let crossed := (List.range 4).foldl (fun pool source =>
    pool.absorb (pool.content.getD source 0) ((List.range 4).filter (· != source))) first
  (entropy.drop 4).foldl (fun pool word => pool.absorb word (List.range 4)) crossed

def Pool.output (pool : Pool) : List UInt32 :=
  ((List.range 8).foldl (fun (acc : UInt32 × List UInt32) i =>
    let mixed := pool.content.getD (i % 4) 0 ^^^ acc.1
    let next := acc.1 * 0x58f38ded
    let mixed := mixed * next
    (next, acc.2 ++ [mixed ^^^ (mixed >>> 16)])) (0x8b51f9dd, [])).2

namespace Generator

/-- The multiplier of the congruential step. -/
def multiplier : BitVec 128 := 0x2360ed051fc65da44385df649fccf645#128

def advance (g : Generator) : Generator :=
  { g with state := g.state * multiplier + g.increment }

/-- The generator of stream `stream` of a run with the given seed. -/
def seeded (seed stream : Nat) : Generator :=
  let out := (Pool.ofEntropy (entropy seed stream)).output.map fun w => BitVec.ofNat 128 w.toNat
  let word (i : Nat) : BitVec 128 := out.getD (2 * i) 0 ||| (out.getD (2 * i + 1) 0 <<< 32)
  let increment := (((word 2 <<< 64) ||| word 3) <<< 1) ||| 1
  let start : Generator := ⟨0, increment, none⟩
  let first := start.advance
  { first with state := first.state + ((word 0 <<< 64) ||| word 1) }.advance

/-- The word of 64 bits shown by a state: its halves combined, turned right by its top six bits. -/
def shown (state : BitVec 128) : UInt64 :=
  let folded := ((state >>> 64) ^^^ state).setWidth 64
  let turn := (state >>> 122).toNat
  UInt64.ofBitVec (folded.rotateRight turn)

def word (g : Generator) : UInt64 × Generator :=
  let g := g.advance
  (shown g.state, g)

/-- The next half word: the spare one if there is one, else the lower half of the next word, whose
upper half becomes the spare. -/
def halfWord (g : Generator) : UInt32 × Generator :=
  match g.spare with
  | some half => (half, { g with spare := none })
  | none =>
    let (w, g) := g.word
    (w.toUInt32, { g with spare := some (w >>> 32).toUInt32 })

/-- The next number of `[0, 1)`, a multiple of `2 ^ -53`. -/
def unit (g : Generator) : Float × Generator :=
  let (w, g) := g.word
  ((w >>> 11).toFloat / 9007199254740992.0, g)

end Generator

end BoxSearch.Random
