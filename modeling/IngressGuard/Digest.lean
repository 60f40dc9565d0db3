import IngressGuard.Text.Digits
import IngressGuard.Words

/-!
# The BLAKE3 digest

A text is cut into chunks of 1024 bytes, and a chunk into blocks of 64 bytes.  The blocks of a
chunk are mixed one after another into a chaining value of eight words.  Chaining values are
combined two by two until one is left: the digest.
-/

namespace IngressGuard.Digest

/-- A chaining value of eight words. -/
structure Chain where
  low : Row
  high : Row
  deriving DecidableEq, Repr

/-- The value that every chain begins with. -/
def initial : Chain :=
  ⟨⟨0x6A09E667, 0xBB67AE85, 0x3C6EF372, 0xA54FF53A⟩,
    ⟨0x510E527F, 0x9B05688C, 0x1F83D9AB, 0x5BE0CD19⟩⟩

/-! ## Flags -/

/-- The block is the first of its chunk. -/
def chunkStart : UInt32 := 1

/-- The block is the last of its chunk. -/
def chunkEnd : UInt32 := 2

/-- The block holds two chaining values. -/
def parent : UInt32 := 4

/-- The block is the last of all. -/
def root : UInt32 := 8

/-! ## Mixing -/

/-- The order in which the next round takes the words of a block. -/
def order : List Nat := [2, 6, 3, 10, 7, 0, 4, 13, 1, 11, 12, 5, 9, 14, 15, 8]

/-- The words of a block in the order of the next round. -/
def reorder (words : Array UInt32) : Array UInt32 :=
  (order.map fun i => words.getD i 0).toArray

/-- Mixes the four words of every column with two words of the block. -/
def mixColumns (x y : Row) (g : Grid) : Grid :=
  let a := g.a + g.b + x
  let d := (g.d ^^^ a).map (rotateDown · 16)
  let c := g.c + d
  let b := (g.b ^^^ c).map (rotateDown · 12)
  let a := a + b + y
  let d := (d ^^^ a).map (rotateDown · 8)
  let c := c + d
  let b := (b ^^^ c).map (rotateDown · 7)
  ⟨a, b, c, d⟩

/-- Mixes the columns and then the diagonals with the words of a block. -/
def round (words : Array UInt32) (g : Grid) : Grid :=
  let word (i : Nat) : UInt32 := words.getD i 0
  let row (i : Nat) : Row := ⟨word i, word (i + 2), word (i + 4), word (i + 6)⟩
  (mixColumns (row 8) (row 9) (mixColumns (row 0) (row 1) g).skew).unskew

/-- Carries out rounds, with the words of the block in a new order each time. -/
def rounds : Nat → Array UInt32 → Grid → Grid
  | 0, _, g => g
  | n + 1, words, g => rounds n (reorder words) (round words g)

/-- Mixes a block into a chaining value. -/
def compress (chain : Chain) (block : List UInt8) (counter : UInt64) (flags : UInt32) : Chain :=
  let tail : Row :=
    ⟨counter.toUInt32, (counter >>> 32).toUInt32, UInt32.ofNat block.length, flags⟩
  let g := rounds 7 (wordsOfBytes block).toArray ⟨chain.low, chain.high, initial.low, tail⟩
  ⟨g.a ^^^ g.c, g.b ^^^ g.d⟩

/-! ## Chunks and their combination -/

/-- The bytes of a chaining value. -/
def Chain.bytes (c : Chain) : List UInt8 := (c.low.toList ++ c.high.toList).flatMap wordBytes

/-- Cuts a list into pieces of a size; only the last one may be shorter.  There is always one. -/
def pieces (size : Nat) : Nat → List UInt8 → List (List UInt8)
  | 0, bytes => [bytes]
  | n + 1, bytes =>
    if bytes.length ≤ size then [bytes] else bytes.take size :: pieces size n (bytes.drop size)

/-- Mixes the blocks of a chunk into a chaining value. -/
def chunkFrom (counter : UInt64) (last : UInt32) (flags : UInt32) (chain : Chain) :
    List (List UInt8) → Chain
  | [] => chain
  | [block] => compress chain block counter (flags ||| chunkEnd ||| last)
  | block :: rest =>
    chunkFrom counter last 0 (compress chain block counter flags) rest

/-- The chaining value of a chunk, or the digest if there is no other chunk. -/
def chunk (last : UInt32) (counter : Nat) (bytes : List UInt8) : Chain :=
  chunkFrom (UInt64.ofNat counter) last chunkStart initial (pieces 64 16 bytes)

/-- Combines two chaining values. -/
def combine (flags : UInt32) (left right : Chain) : Chain :=
  compress initial (left.bytes ++ right.bytes) 0 (parent ||| flags)

/-- Combines neighbours; one that is left over stays as it is. -/
def combineAll : List Chain → List Chain
  | left :: right :: rest => combine 0 left right :: combineAll rest
  | chains => chains

/-- Combines chaining values until one is left. -/
def combineToOne : Nat → List Chain → Chain
  | _, [] => initial
  | _, [only] => only
  | _, [left, right] => combine root left right
  | 0, left :: _ => left
  | n + 1, chains => combineToOne n (combineAll chains)

/-- The digest of bytes. -/
def ofBytes (bytes : List UInt8) : Chain :=
  match pieces 1024 bytes.length bytes with
  | [only] => chunk root 0 only
  | many => combineToOne many.length (many.zipIdx.map fun (piece, i) => chunk 0 i piece)

/-- The digest of texts one after another, in hexadecimal. -/
def ofTexts (texts : List String) : String :=
  Text.hexBytes (ofBytes (texts.flatMap fun text => text.toUTF8.toList)).bytes

end IngressGuard.Digest
