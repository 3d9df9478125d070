/-!
# Seeded draws

A draw among `count` candidates depends on a seed and on `count` only.  The seed is expanded to a
256-bit key, the key is run through the ChaCha block function with twelve rounds, and the words of
that stream are scaled down to an index.  Words from the top of the range, which would favour the
first candidates, are passed over.
-/

namespace SensoryProse.Draw

def rotateLeft (word amount : UInt32) : UInt32 :=
  (word <<< amount) ||| (word >>> (32 - amount))

/-- The words that a 64-bit seed expands to, by a permuted congruential generator. -/
def expand : Nat → UInt64 → List UInt32
  | 0, _ => []
  | count + 1, seed =>
      let state := seed * 6364136223846793005 + 11634580027462260723
      let mixed := (((state >>> 18) ^^^ state) >>> 27).toUInt32
      let turn := (state >>> 59).toUInt32
      ((mixed >>> turn) ||| (mixed <<< ((32 - turn) % 32))) :: expand count state

abbrev Block := Vector UInt32 16

def quarterRound (a b c d : Fin 16) (block : Block) : Block :=
  let block := block.set a (block[a] + block[b])
  let block := block.set d (rotateLeft (block[d] ^^^ block[a]) 16)
  let block := block.set c (block[c] + block[d])
  let block := block.set b (rotateLeft (block[b] ^^^ block[c]) 12)
  let block := block.set a (block[a] + block[b])
  let block := block.set d (rotateLeft (block[d] ^^^ block[a]) 8)
  let block := block.set c (block[c] + block[d])
  block.set b (rotateLeft (block[b] ^^^ block[c]) 7)

/-- One round on the columns of the block and one on its diagonals. -/
def doubleRound (block : Block) : Block :=
  let block := quarterRound 0 4 8 12 block
  let block := quarterRound 1 5 9 13 block
  let block := quarterRound 2 6 10 14 block
  let block := quarterRound 3 7 11 15 block
  let block := quarterRound 0 5 10 15 block
  let block := quarterRound 1 6 11 12 block
  let block := quarterRound 2 7 8 13 block
  quarterRound 3 4 9 14 block

def doubleRounds : Nat → Block → Block
  | 0, block => block
  | count + 1, block => doubleRounds count (doubleRound block)

def constants : List UInt32 := [0x61707865, 0x3320646e, 0x79622d32, 0x6b206574]

def initialBlock (key : List UInt32) (counter : UInt64) : Block :=
  let words := constants ++ key ++ [counter.toUInt32, (counter >>> 32).toUInt32, 0, 0]
  Vector.ofFn fun index => words.getD index 0

def block (key : List UInt32) (counter : UInt64) : Block :=
  let start := initialBlock key counter
  Vector.zipWith (· + ·) start (doubleRounds 6 start)

/-- The number of binary zeros in front of a 32-bit number. -/
def leadingZeros (count : Nat) : Nat := if count = 0 then 32 else 31 - count.log2

/-- The largest low half a product may have for its word to count. -/
def zone (count : Nat) : Nat := (count <<< leadingZeros count) - 1

/-- The index that `word` stands for among `count` candidates, if the word counts. -/
def indexOf? (count : Nat) (word : UInt32) : Option Nat :=
  let product := word.toNat * count
  if product % UInt32.size ≤ zone count then some (product / UInt32.size) else none

/-- How many blocks are looked through.  At least every second word counts, so the look ends in the
first block or two. -/
def blockLimit : Nat := 16

/-- The first index the stream gives in its first `blocks` blocks from `counter` on. -/
def search (key : List UInt32) (count : Nat) : Nat → UInt64 → Option Nat
  | 0, _ => none
  | blocks + 1, counter =>
      match (block key counter).toList.findSome? (indexOf? count) with
      | some index => some index
      | none => search key count blocks (counter + 1)

def index (seed : UInt64) (count : Nat) : Nat :=
  (search (expand 8 seed) count blockLimit 0).getD 0

theorem indexOf?_lt {count chosen : Nat} {word : UInt32} (nonempty : 0 < count)
    (found : indexOf? count word = some chosen) : chosen < count := by
  simp only [indexOf?] at found
  split at found
  · obtain rfl := Option.some.inj found
    exact Nat.div_lt_of_lt_mul (Nat.mul_lt_mul_of_pos_right word.toNat_lt nonempty)
  · contradiction

theorem search_lt {key : List UInt32} {count blocks chosen : Nat} {counter : UInt64}
    (nonempty : 0 < count) (found : search key count blocks counter = some chosen) :
    chosen < count := by
  induction blocks generalizing counter with
  | zero => simp [search] at found
  | succ blocks induction =>
      simp only [search] at found
      split at found
      · rename_i index first
        obtain rfl := Option.some.inj found
        obtain ⟨word, _, counted⟩ := List.exists_of_findSome?_eq_some first
        exact indexOf?_lt nonempty counted
      · exact induction found

theorem index_lt {count : Nat} (seed : UInt64) (nonempty : 0 < count) :
    index seed count < count := by
  unfold index
  cases found : search (expand 8 seed) count blockLimit 0 with
  | none => simpa using nonempty
  | some chosen => simpa using search_lt nonempty found

end SensoryProse.Draw

namespace SensoryProse

/-- A way of drawing one of several candidates, by their number alone. -/
structure Drawing where
  index : Nat → Nat
  index_lt : ∀ {count : Nat}, 0 < count → index count < count

/-- The way of drawing that a seed stands for. -/
def Drawing.seeded (seed : UInt64) : Drawing where
  index := Draw.index seed
  index_lt := Draw.index_lt seed

end SensoryProse
