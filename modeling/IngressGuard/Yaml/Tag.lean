/-!
# Tags

A tag tells what a node is meant to be.  The octets of a tag may be written one by one, so it need
not be the encoding of a text; a zero octet ends it.  Tags that begin with an exclamation mark have
their meaning in the document alone, the others have it everywhere.
-/

namespace IngressGuard.Yaml

/-- A tag, as its octets before the first zero. -/
structure Tag where
  octets : List UInt8
  deriving DecidableEq, Repr

namespace Tag

/-- The tag that begins with some octets. -/
def ofOctets (octets : List UInt8) : Tag := ⟨octets.takeWhile (· ≠ 0)⟩

/-- The tag that a text spells. -/
def ofText (text : String) : Tag := ofOctets text.toUTF8.toList

/-- The tag of values of a kind that is the same in all documents. -/
def common (kind : String) : Tag := ofText s!"tag:yaml.org,2002:{kind}"

/-- A tag behind the beginning that its handle stands for. -/
def append (beginning t : Tag) : Tag := ⟨beginning.octets ++ t.octets⟩

/-- The octet of an exclamation mark. -/
def localSign : UInt8 := 0x21

/-- Whether a tag has its meaning in the document alone. -/
def isLocal (t : Tag) : Bool := t.octets.head? == some localSign

/-- The text that octets encode, if they do. -/
def textOf? (octets : List UInt8) : Option String := String.fromUTF8? ⟨octets.toArray⟩

/-- The name that a tag of the document alone gives: what follows the exclamation mark, or the
mark itself if nothing does. -/
def localName? (t : Tag) : Option String :=
  match t.octets with
  | sign :: rest =>
    if sign = localSign then textOf? (if rest.isEmpty then [sign] else rest) else none
  | [] => none

end Tag

end IngressGuard.Yaml
