/-!
# Words

Words of 32 bits, four of them side by side, as ciphers and digests mix them.
-/

namespace IngressGuard

/-- Moves the bits of a word up; those that leave at the top come back in at the bottom. -/
def rotateUp (word count : UInt32) : UInt32 := (word <<< count) ||| (word >>> (32 - count))

/-- Moves the bits of a word down; those that leave at the bottom come back in at the top. -/
def rotateDown (word count : UInt32) : UInt32 := (word >>> count) ||| (word <<< (32 - count))

/-- The bytes of a word, the lowest first. -/
def wordBytes (word : UInt32) : List UInt8 :=
  [word.toUInt8, (word >>> 8).toUInt8, (word >>> 16).toUInt8, (word >>> 24).toUInt8]

/-- The words of bytes, the lowest byte of each word first.  Missing bytes are zero. -/
def wordsOfBytes : List UInt8 → List UInt32
  | [] => []
  | [a] => [a.toUInt32]
  | [a, b] => [a.toUInt32 ||| b.toUInt32 <<< 8]
  | [a, b, c] => [a.toUInt32 ||| b.toUInt32 <<< 8 ||| c.toUInt32 <<< 16]
  | a :: b :: c :: d :: rest =>
    (a.toUInt32 ||| b.toUInt32 <<< 8 ||| c.toUInt32 <<< 16 ||| d.toUInt32 <<< 24) ::
      wordsOfBytes rest

/-- Four words side by side. -/
structure Row where
  first : UInt32
  second : UInt32
  third : UInt32
  fourth : UInt32
  deriving DecidableEq, Repr

namespace Row

/-- Applies a function to every word. -/
def map (f : UInt32 → UInt32) (r : Row) : Row := ⟨f r.first, f r.second, f r.third, f r.fourth⟩

/-- Combines two rows word by word. -/
def zip (f : UInt32 → UInt32 → UInt32) (r s : Row) : Row :=
  ⟨f r.first s.first, f r.second s.second, f r.third s.third, f r.fourth s.fourth⟩

/-- The words in their order. -/
def toList (r : Row) : List UInt32 := [r.first, r.second, r.third, r.fourth]

/-- The row of the first four words of a list; missing words are zero. -/
def ofList (words : List UInt32) : Row :=
  ⟨words.getD 0 0, words.getD 1 0, words.getD 2 0, words.getD 3 0⟩

/-- Moves every word one place to the left, and the first to the end. -/
def turn (r : Row) : Row := ⟨r.second, r.third, r.fourth, r.first⟩

instance : Add Row := ⟨zip (· + ·)⟩

instance : XorOp Row := ⟨zip (· ^^^ ·)⟩

end Row

/-- Sixteen words in four rows. -/
structure Grid where
  a : Row
  b : Row
  c : Row
  d : Row
  deriving DecidableEq, Repr

namespace Grid

/-- Turns the rows so that the diagonals become the columns. -/
def skew (g : Grid) : Grid := ⟨g.a, g.b.turn, g.c.turn.turn, g.d.turn.turn.turn⟩

/-- Turns the rows so that the columns become the diagonals. -/
def unskew (g : Grid) : Grid := ⟨g.a, g.b.turn.turn.turn, g.c.turn.turn, g.d.turn⟩

/-- The words row by row. -/
def toList (g : Grid) : List UInt32 := g.a.toList ++ g.b.toList ++ g.c.toList ++ g.d.toList

end Grid

end IngressGuard
