import IngressGuard.Random.ChaCha

/-!
# Random draws

Draws read a stream of random words from some place on; what is drawn depends only on the words
that are read.  A number below a bound takes one word, and rarely a second one; a decision with
some chance takes two words, or none if it is certain.
-/

namespace IngressGuard

/-- A stream of random words and the place of the next word to be read. -/
structure Draws where
  words : Nat → UInt32
  place : Nat

namespace Draws

/-- The state of the generator that spreads a seed over the words of a key. -/
def spread (s : UInt64) : UInt64 := s * 6364136223846793005 + 11634580027462260723

/-- The word that such a state gives. -/
def spreadWord (s : UInt64) : UInt32 :=
  let mixed := (((s >>> 18) ^^^ s) >>> 27).toUInt32
  let count := (s >>> 59).toUInt32
  if count = 0 then mixed else rotateDown mixed count

/-- Words spread from a seed. -/
def spreadWords : Nat → UInt64 → List UInt32
  | 0, _ => []
  | n + 1, s => spreadWord (spread s) :: spreadWords n (spread s)

/-- The key that a seed gives. -/
def keyOfSeed (seed : UInt64) : ChaCha.Key :=
  let words := spreadWords 8 seed
  ⟨Row.ofList words, Row.ofList (words.drop 4)⟩

/-- The draws that a seed gives, from the first word on. -/
def ofSeed (seed : UInt64) : Draws :=
  let key := keyOfSeed seed
  ⟨ChaCha.word key, 0⟩

end Draws

/-- How likely something is, in parts of `2 ^ 64`. -/
inductive Chance where
  | certain
  | parts (count : Nat)
  deriving DecidableEq, Repr

/-- The chance that a number between zero and one stands for, rounded down. -/
def Chance.ofFloat (p : Float) : Chance :=
  if p == 1.0 then .certain else .parts (p * 18446744073709551616.0).toUInt64.toNat

/-- Draws something. -/
abbrev Draw := StateM Draws

namespace Draw

/-- Reads the next word. -/
def word : Draw UInt32 := fun d => (d.words d.place, { d with place := d.place + 1 })

/-- Draws a byte. -/
def byte : Draw UInt8 := UInt32.toUInt8 <$> word

/-- Draws a number of sixteen bits. -/
def group : Draw UInt16 := UInt32.toUInt16 <$> word

/-- Draws a number of 64 bits from two words, the low one first. -/
def long : Draw Nat := do
  let low ← word
  let high ← word
  return high.toNat * Nat.pow 2 32 + low.toNat

/-- Draws a number below a bound of at most `2 ^ 32`.  The upper half of the product of a word and
the bound is the number, except that the lower half of the product may come so close to the next
number that a second word decides. -/
def below (bound : Nat) : Draw Nat := do
  let product := (← word).toNat * bound
  let number := product / Nat.pow 2 32
  let rest := product % Nat.pow 2 32
  if rest ≤ Nat.pow 2 32 - bound then return number
  let more := (← word).toNat * bound / Nat.pow 2 32
  return if rest + more < Nat.pow 2 32 then number else number + 1

/-- Draws a number between two others, both included. -/
def between (low high : Nat) : Draw Nat := (low + ·) <$> below (high - low + 1)

/-- Draws a decision. -/
def decide : Chance → Draw Bool
  | .certain => return true
  | .parts count => return (← long) < count

/-- Draws one of two things. -/
def either {α : Type} (chance : Chance) (yes no : α) : Draw α :=
  return if ← decide chance then yes else no

end Draw

end IngressGuard
