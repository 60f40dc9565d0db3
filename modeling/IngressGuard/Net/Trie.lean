import IngressGuard.Net.Prefix

/-!
# Longest-prefix-match tables

The kernel's tables know nothing of addresses.  A key is a number of significant bits and some
bytes, and a look-up finds, among the keys whose significant bits agree with those of the bytes
that are looked up, the one with the most of them.
-/

namespace IngressGuard

/-- The bits of a byte, most significant first. -/
def bitsOfByte (b : UInt8) : List Bool :=
  (List.range 8).map fun i => b.toNat.testBit (7 - i)

/-- The bits of a list of bytes, most significant first in each of them. -/
def bitsOf (bytes : List UInt8) : List Bool := bytes.flatMap bitsOfByte

/-- A key as the bytes that hold it: how many bits are significant, as four bytes with the
least significant first, and then the bytes that have them. -/
abbrev TrieKey := List UInt8

namespace TrieKey

/-- How many bits of a key are significant. -/
def length (k : TrieKey) : Nat := ofBigEndianBytes (k.take 4).reverse

/-- The bytes of a key that have the significant bits. -/
def data (k : TrieKey) : List UInt8 := k.drop 4

/-- The key for all bits of some bytes. -/
def full (bytes : List UInt8) : TrieKey := littleEndianBytes 4 (8 * bytes.length) ++ bytes

/-- Whether the significant bits of a key are also the first significant bits of another. -/
def covers (k query : TrieKey) : Bool :=
  decide (k.length ≤ query.length) &&
    (bitsOf k.data).take k.length == (bitsOf query.data).take k.length

end TrieKey

/-- The keys of a table, in no particular order. -/
abbrev Trie := List TrieKey

namespace Trie

/-- The key with the most significant bits among those that cover a given one. -/
def lookup? (t : Trie) (query : TrieKey) : Option TrieKey :=
  (t.filter (TrieKey.covers · query)).foldl
    (fun best k =>
      match best with
      | some b => if TrieKey.length b ≤ TrieKey.length k then some k else some b
      | none => some k)
    none

/-- The table of a set of prefixes. -/
def ofPrefixes (s : PrefixSet) : Trie := s.toList.map Prefix.keyBytes

end Trie

end IngressGuard
