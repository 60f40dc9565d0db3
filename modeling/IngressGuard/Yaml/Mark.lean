/-!
# Places in a text

Faults are reported with the place where they were found and, if that helps, with what was being
read and where it had begun.
-/

namespace IngressGuard.Yaml

/-- A place in a text: the bytes, the lines, and the characters in the line before it. -/
structure Mark where
  index : Nat
  line : Nat
  column : Nat
  deriving DecidableEq, Repr, Inhabited

namespace Mark

/-- The beginning of a text. -/
def start : Mark := ⟨0, 0, 0⟩

/-- Whether a place is not at the beginning of the first line. -/
def isShown (m : Mark) : Bool := m.line ≠ 0 || m.column ≠ 0

/-- A place as faults show it; lines and columns are counted from one. -/
def text (m : Mark) : String :=
  if m.isShown then s!"line {m.line + 1} column {m.column + 1}" else s!"position {m.index}"

end Mark

/-- What is wrong with the syntax of a text. -/
structure SyntaxFault where
  problem : String
  mark : Mark
  /-- The byte at which a character is not allowed, which is known instead of the mark. -/
  offset : Nat
  /-- What was being read, and where it had begun. -/
  context : Option (String × Mark)
  deriving DecidableEq, Repr

namespace SyntaxFault

/-- A fault at a place. -/
def found (mark : Mark) (problem : String) : SyntaxFault := ⟨problem, mark, 0, none⟩

/-- A fault at a place in something that had begun before. -/
def inside (context : String) (start mark : Mark) (problem : String) : SyntaxFault :=
  ⟨problem, mark, 0, some (context, start)⟩

/-- What a fault tells an operator. -/
def message (f : SyntaxFault) : String :=
  let place :=
    if f.mark.isShown then s!" at {f.mark.text}"
    else if f.offset ≠ 0 then s!" at position {f.offset}"
    else ""
  let context := match f.context with
    | some (what, start) =>
      if start.isShown && !(start.line == f.mark.line && start.column == f.mark.column) then
        s!", {what} at {start.text}"
      else s!", {what}"
    | none => ""
  f.problem ++ place ++ context

end SyntaxFault

end IngressGuard.Yaml
