import IngressGuard.Text.Digits
import IngressGuard.Yaml.Cursor
import IngressGuard.Yaml.Token

/-!
# Scanning directives, anchors and tags

Directives stand in front of a document; anchors, aliases and tags stand in front of a node.
-/

namespace IngressGuard.Yaml

open Text

/-! ## Tags -/

/-- Characters of a tag besides those of names.  Between angle brackets, flow signs are characters
of tags, too. -/
def isTagChar (bracketed : Bool) (c : Char) : Bool :=
  isWordChar c || ";/?:@&=+$.%!~*\x27()".toList.contains c ||
    (bracketed && [',', '[', ']'].contains c)

/-- How many bytes the encoding of a character takes whose first byte is given. -/
def encodedLength? (b : UInt8) : Option Nat :=
  if b < 0x80 then some 1
  else if b &&& 0xE0 = 0xC0 then some 2
  else if b &&& 0xF0 = 0xE0 then some 3
  else if b &&& 0xF8 = 0xF0 then some 4
  else none

/-- The octet that a percent sign and two digits stand for. -/
def escapedOctet (context : String) (start : Mark) : Reader UInt8 := do
  let octet? := match (← get).rest with
    | '%' :: high :: low :: _ => (natOfDigits? 16 [high, low]).map UInt8.ofNat
    | _ => none
  match octet? with
  | some octet => return octet
  | none => Reader.fail context start "did not find URI escaped octet"

/-- Reads some further octets of a character. -/
def furtherOctets (context : String) (start : Mark) : Nat → Reader (List UInt8)
  | 0 => return []
  | count + 1 => do
    let octet ← escapedOctet context start
    if octet &&& 0xC0 ≠ 0x80 then
      Reader.fail context start "found an incorrect trailing UTF-8 octet"
    Reader.skip 3
    return octet :: (← furtherOctets context start count)

/-- Reads a character that is written as percent signs and digits.  That its octets have the form of
a character does not mean that there is such a character. -/
def tagEscape (context : String) (start : Mark) : Reader (List UInt8) := do
  let first ← escapedOctet context start
  match encodedLength? first with
  | none => Reader.fail context start "found an incorrect leading UTF-8 octet"
  | some length => do
    Reader.skip 3
    return first :: (← furtherOctets context start (length - 1))

/-- Reads the octets of a tag behind those that were read of it already, which are in reverse. -/
def tagOctets (context : String) (start : Mark) (bracketed : Bool) :
    Nat → List UInt8 → Reader (List UInt8)
  | 0, before => return before.reverse
  | rounds + 1, before => do
    match (← get).next? with
    | some '%' =>
      let octets ← tagEscape context start
      tagOctets context start bracketed rounds (octets.reverse ++ before)
    | some ch =>
      if isTagChar bracketed ch then
        Reader.skip 1
        tagOctets context start bracketed rounds (ch.toString.toUTF8.toList.reverse ++ before)
      else return before.reverse
    | none => return before.reverse

/-- Reads the content of a tag behind what was read of it already. -/
def tagContent (context : String) (start : Mark) (bracketed : Bool) (head : String) :
    Reader Tag := do
  let before := (head.drop 1).toString.toUTF8.toList.reverse
  let octets ← tagOctets context start bracketed (← get).size before
  if octets.isEmpty && head.isEmpty then
    Reader.fail context start "did not find expected tag URI"
  return .ofOctets octets

/-- Reads the handle of a tag: words between exclamation marks, or what may turn out to be the
beginning of the tag itself. -/
def tagHandle (inDirective : Bool) (start : Mark) : Reader String := do
  if (← get).next? != some '!' then
    Reader.fail (if inDirective then "while scanning a tag directive" else "while scanning a tag")
      start "did not find expected '!'"
  Reader.skip 1
  let word ← Reader.takeWhile isWordChar
  if (← get).next? == some '!' then
    Reader.skip 1
    return "!" ++ word ++ "!"
  if inDirective && !word.isEmpty then
    Reader.fail "while parsing a tag directive" start "did not find expected '!'"
  return "!" ++ word

/-- Reads the tag of a node. -/
def nodeTag (inFlow : Bool) : Reader Token := do
  let c ← get
  let context := "while scanning a tag"
  let (handle, content) ← if c.ahead? 1 == some '<' then do
      Reader.skip 2
      let content ← tagContent "while parsing a tag" c.mark true ""
      if (← get).next? != some '>' then
        Reader.fail context c.mark "did not find the expected '>'"
      Reader.skip 1
      pure ("", content)
    else do
      let handle ← tagHandle false c.mark
      if handle.length > 1 && handle.endsWith "!" then
        pure (handle, ← tagContent "while parsing a tag" c.mark false "")
      else
        let content ← tagContent "while parsing a tag" c.mark false handle
        pure (if content.octets.isEmpty then ("", .ofText "!") else ("!", content))
  let next := (← get).next?
  if !(inFlow && next == some ',') && !endsWord next then
    Reader.fail context c.mark "did not find expected whitespace or line break"
  return ⟨.tag handle content, c.mark, (← get).mark⟩

/-! ## Anchors -/

/-- Reads the name after the sign of an anchor or an alias. -/
def anchorName (isAlias : Bool) : Reader Token := do
  let start := (← get).mark
  Reader.skip 1
  let name ← Reader.takeWhile isWordChar
  let c ← get
  let ends := endsWord c.next? || c.next?.any "?:,]\x7d%@\x60".toList.contains
  if name.isEmpty || !ends then
    Reader.fail (if isAlias then "while scanning an alias" else "while scanning an anchor") start
      "did not find expected alphabetic or numeric character"
  return ⟨if isAlias then .reference name else .anchor name, start, c.mark⟩

/-! ## Directives -/

/-- The most digits a part of a version may have. -/
def maxVersionDigits : Nat := 9

/-- Reads a part of a version. -/
def versionPart (start : Mark) : Reader Nat := do
  let context := "while scanning a %YAML directive"
  let digits := ((← get).rest.takeWhile Char.isDigit)
  if digits.length > maxVersionDigits then
    Reader.skip maxVersionDigits
    Reader.fail context start "found extremely long version number"
  if digits.isEmpty then Reader.fail context start "did not find expected version number"
  Reader.skip digits.length
  return (natOfDigits? 10 digits).getD 0

/-- Reads the version after the name of its directive. -/
def versionDirective (start : Mark) : Reader TokenKind := do
  modify (·.skipWhile isBlank)
  let major ← versionPart start
  if (← get).next? != some '.' then
    Reader.fail "while scanning a %YAML directive" start
      "did not find expected digit or '.' character"
  Reader.skip 1
  return .versionDirective major (← versionPart start)

/-- Reads the handle and the content of tags after the name of their directive. -/
def tagDirective (start : Mark) : Reader TokenKind := do
  let context := "while scanning a %TAG directive"
  modify (·.skipWhile isBlank)
  let handle ← tagHandle true start
  if !(← get).next?.any isBlank then
    Reader.fail context start "did not find expected whitespace"
  modify (·.skipWhile isBlank)
  let content ← tagContent "while parsing a %TAG directive" start true ""
  if !endsWord (← get).next? then
    Reader.fail context start "did not find expected whitespace or line break"
  return .tagDirective handle content

/-- Reads a directive with the rest of its line. -/
def directive : Reader Token := do
  let context := "while scanning a directive"
  let start := (← get).mark
  Reader.skip 1
  let name ← Reader.takeWhile isWordChar
  if name.isEmpty then Reader.fail context start "could not find expected directive name"
  if !endsWord (← get).next? then
    Reader.fail context start "found unexpected non-alphabetical character"
  let kind ← if name == "YAML" then versionDirective start
    else if name == "TAG" then tagDirective start
    else Reader.fail context start "found unknown directive name"
  let stop := (← get).mark
  modify Cursor.skipLineTail
  if !endsLine (← get).next? then
    Reader.fail context start "did not find expected comment or line break"
  modify Cursor.skipBreak
  return ⟨kind, start, stop⟩

end IngressGuard.Yaml
