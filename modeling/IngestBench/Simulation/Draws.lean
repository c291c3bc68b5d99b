/-! Pseudo-random draws for simulated hosts. A stream of 32-bit words comes from a block cipher in counter mode
    whose key is spread from a 64-bit seed; draws of whole numbers and of fractions take words from it. -/

namespace IngestBench

/-- The sixteen words of a cipher block. -/
abbrev Block := Vector UInt32 16

namespace Block

/-- A word with its bits moved to the left in a circle. -/
def rotate (x : UInt32) (n : UInt32) : UInt32 := (x <<< n) ||| (x >>> (32 - n))

/-- Mixes four words of a block. -/
def quarter (b : Block) (i j k l : Fin 16) : Block :=
  let a := b[i] + b[j]
  let d := rotate (b[l] ^^^ a) 16
  let c := b[k] + d
  let e := rotate (b[j] ^^^ c) 12
  let a := a + e
  let d := rotate (d ^^^ a) 8
  let c := c + d
  let e := rotate (e ^^^ c) 7
  (((b.set i a).set j e).set k c).set l d

/-- Mixes the columns of a block and then its diagonals. -/
def doubleRound (b : Block) : Block :=
  let b := quarter (quarter (quarter (quarter b 0 4 8 12) 1 5 9 13) 2 6 10 14) 3 7 11 15
  quarter (quarter (quarter (quarter b 0 5 10 15) 1 6 11 12) 2 7 8 13) 3 4 9 14

/-- Twelve rounds, and the block itself added to their result. -/
def scramble (b : Block) : Block :=
  let mixed := doubleRound (doubleRound (doubleRound (doubleRound (doubleRound (doubleRound b)))))
  Vector.zipWith (· + ·) mixed b

end Block

/-- A stream of words: the key, the number of the next block, and the words left of the last one. -/
structure Draws where
  key : Vector UInt32 8
  counter : UInt64
  left : List UInt32

namespace Draws

/-- One word of a key from the state of a linear generator: the high bits, shifted and rotated by the
    highest ones. -/
def spreadWord (state : UInt64) : UInt32 :=
  let x := (((state >>> 18) ^^^ state) >>> 27).toUInt32
  let r := (state >>> 59).toUInt32
  (x >>> r) ||| (x <<< ((32 - r) % 32))

/-- The next state of the linear generator. -/
def advance (state : UInt64) : UInt64 := state * 6364136223846793005 + 11634580027462260723

/-- The states that give the words of a key. -/
def states (seed : UInt64) : Nat → List UInt64
  | 0 => []
  | n + 1 => let s := advance seed; s :: states s n

/-- The stream of a seed. -/
def ofSeed (seed : UInt64) : Draws :=
  let words := (states seed 8).map spreadWord
  { key := Vector.ofFn fun i => words.getD i.val 0, counter := 0, left := [] }

/-- The block with a given number: constants, key, number, and a stream number of zero. -/
def block (key : Vector UInt32 8) (counter : UInt64) : Block :=
  Block.scramble #v[0x61707865, 0x3320646e, 0x79622d32, 0x6b206574,
    key[0], key[1], key[2], key[3], key[4], key[5], key[6], key[7],
    counter.toUInt32, (counter >>> 32).toUInt32, 0, 0]

/-- The next word. -/
def word (d : Draws) : UInt32 × Draws :=
  match d.left with
  | w :: rest => (w, { d with left := rest })
  | [] =>
    match (block d.key d.counter).toList with
    | w :: rest => (w, { d with counter := d.counter + 1, left := rest })
    | [] => (0, d)

/-- The next two words as one, the first one low. -/
def word64 (d : Draws) : UInt64 × Draws :=
  let (low, d) := d.word
  let (high, d) := d.word
  ((high.toUInt64 <<< 32) ||| low.toUInt64, d)

/-- A whole number below `range`: the high half of a product, corrected by a second draw when the low half
    leaves it open. -/
def below (range : Nat) (d : Draws) : Nat × Draws :=
  let (w, d) := d.word
  let product := w.toNat * range
  let high := product / UInt32.size
  let low := product % UInt32.size
  if UInt32.size - range < low then
    let (w, d) := d.word
    let carry := w.toNat * range / UInt32.size
    (if UInt32.size ≤ low + carry then high + 1 else high, d)
  else (high, d)

/-- A number from `low` up to `high`: the mantissa of a number between one and two, moved and stretched. -/
def between (low high : Float) (d : Draws) : Float × Draws :=
  let (w, d) := d.word64
  let unit := Float.ofBits ((w >>> 12) ||| ((1023 : UInt64) <<< 52)) - 1.0
  (unit * (high - low) + low, d)

end Draws
end IngestBench
