import IngressGuard.Words

/-!
# The ChaCha stream

A key of eight words gives a stream of words that look random.  The stream comes in blocks of
sixteen words; the block with a number is the key mixed with that number for twelve rounds, which
are six double rounds over the columns and the diagonals of a grid.
-/

namespace IngressGuard.ChaCha

/-- A key of eight words. -/
structure Key where
  low : Row
  high : Row
  deriving DecidableEq, Repr

/-- The words that every block begins with. -/
def constants : Row := ⟨0x61707865, 0x3320646e, 0x79622d32, 0x6b206574⟩

/-- Mixes the four words of every column. -/
def mixColumns (g : Grid) : Grid :=
  let a := g.a + g.b
  let d := (g.d ^^^ a).map (rotateUp · 16)
  let c := g.c + d
  let b := (g.b ^^^ c).map (rotateUp · 12)
  let a := a + b
  let d := (d ^^^ a).map (rotateUp · 8)
  let c := c + d
  let b := (b ^^^ c).map (rotateUp · 7)
  ⟨a, b, c, d⟩

/-- Mixes the columns and then the diagonals. -/
def doubleRound (g : Grid) : Grid := (mixColumns (mixColumns g).skew).unskew

/-- How many double rounds there are. -/
def doubleRounds : Nat := 6

/-- What a block is before it is mixed. -/
def start (key : Key) (number : UInt64) : Grid :=
  ⟨constants, key.low, key.high, ⟨number.toUInt32, (number >>> 32).toUInt32, 0, 0⟩⟩

/-- The block with a number. -/
def block (key : Key) (number : UInt64) : List UInt32 :=
  let g := start key number
  let mixed := doubleRounds.repeat doubleRound g
  (Grid.mk (mixed.a + g.a) (mixed.b + g.b) (mixed.c + g.c) (mixed.d + g.d)).toList

/-- The word at a place of the stream. -/
def word (key : Key) (index : Nat) : UInt32 :=
  (block key (UInt64.ofNat (index / 16))).getD (index % 16) 0

end IngressGuard.ChaCha
