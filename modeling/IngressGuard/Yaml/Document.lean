import IngressGuard.Yaml.Events

/-!
# Documents

A document is a tree of nodes.  An alias stands for a node that has an anchor; which one, is
settled when the document is complete, by the number of the anchor.  A document that breaks off
keeps the nodes before the fault, and the fault stands where the next node would have been.
-/

namespace IngressGuard.Yaml

/-- How a value is reached from the root. -/
inductive Path where
  | root
  | item (parent : Path) (index : Nat)
  | field (parent : Path) (name : String)
  /-- The value of a key that is no scalar. -/
  | unknown (parent : Path)
  deriving DecidableEq, Repr

namespace Path

/-- A path as faults show it. -/
def text : Path → String
  | root => "."
  | item parent index => s!"{text parent}[{index}]"
  | field root name => name
  | field parent name => s!"{text parent}.{name}"
  | unknown root => "?"
  | unknown parent => s!"{text parent}.?"

end Path

/-- Why a text is not read. -/
inductive Fault where
  | notYaml (fault : SyntaxFault)
  | unknownAnchor (mark : Mark)
  | tooDeep (mark : Mark)
  | tooRepetitive
  | unfinished
  | severalDocuments
  /-- A value is not of the expected kind. -/
  | mismatch (problem : String) (place : Option (Mark × Path))
  deriving DecidableEq, Repr

namespace Fault

/-- A mark at the end of a message, unless it is the very beginning. -/
def placed (message : String) (mark : Mark) : String :=
  if mark.isShown then s!"{message} at {mark.text}" else message

/-- What a fault tells an operator. -/
def message : Fault → String
  | notYaml fault => fault.message
  | unknownAnchor mark => placed "unknown anchor" mark
  | tooDeep mark => placed "recursion limit exceeded" mark
  | tooRepetitive => "repetition limit exceeded"
  | unfinished => "EOF while parsing a value"
  | severalDocuments =>
    "deserializing from YAML containing more than one document is not supported"
  | mismatch problem none => problem
  | mismatch problem (some (mark, path)) =>
    placed (if path = .root then problem else s!"{path.text}: {problem}") mark

end Fault

/-- A node of a document. -/
inductive Node where
  /-- There is no document. -/
  | absent (mark : Mark)
  | reference (mark : Mark) (anchor : Nat)
  | scalar (mark : Mark) (tag : Option Tag) (text : String) (style : Style)
  | sequence (mark : Mark) (tag : Option Tag) (items : List Node)
  | mapping (mark : Mark) (tag : Option Tag) (entries : List (Node × Node))
  /-- The document breaks off. -/
  | broken (fault : Fault)

instance : Inhabited Node := ⟨.absent .start⟩

namespace Node

mutual

/-- The fault inside a node, if there is one. -/
def fault? : Node → Option Fault
  | broken fault => some fault
  | sequence _ _ items => faultIn? items
  | mapping _ _ entries => faultInEntries? entries
  | absent _ | reference .. | scalar .. => none

/-- The fault inside some nodes. -/
def faultIn? : List Node → Option Fault
  | [] => none
  | n :: rest => (fault? n).or (faultIn? rest)

/-- The fault inside some entries. -/
def faultInEntries? : List (Node × Node) → Option Fault
  | [] => none
  | (k, v) :: rest => ((fault? k).or (fault? v)).or (faultInEntries? rest)

end

end Node

/-- A node with an anchor: the number of the anchor, and when it was given. -/
structure Anchored where
  number : Nat
  time : Nat
  node : Node

/-- A document and what comes after it. -/
structure Document where
  root : Node
  anchored : List Anchored
  /-- The number of nodes and of ends of collections. -/
  size : Nat
  /-- The fault that ends the text before the document is complete. -/
  fault : Option Fault
  /-- Whether anything follows. -/
  continues : Bool

namespace Document

/-- The node that an alias stands for: the last one whose anchor has the number. -/
def anchoredNode? (d : Document) (number : Nat) : Option Node :=
  (d.anchored.foldl
    (fun best a =>
      if a.number ≠ number then best
      else match best with
        | some b => if b.time < a.time then some a else best
        | none => some a)
    none).map (·.node)

end Document

/-! ## Building documents -/

/-- A collection that is not complete, with its parts in reverse. -/
structure OpenNode where
  mark : Mark
  tag : Option Tag
  /-- The number of its anchor, and when it was given. -/
  anchor : Option (Nat × Nat)
  isMapping : Bool
  parts : List Node

/-- A document in the making. -/
structure Builder where
  root : Option Node
  stack : List OpenNode
  /-- The numbers of the anchors whose names were given. -/
  names : List (String × Nat)
  anchored : List Anchored
  time : Nat

namespace Builder

/-- The beginning of a document. -/
def fresh : Builder := ⟨none, [], [], [], 0⟩

/-- Pairs of keys and values; the value of the last key may be missing. -/
def pairs : List Node → List (Node × Node)
  | k :: v :: rest => (k, v) :: pairs rest
  | [k] => [(k, k)]
  | [] => []

/-- A collection with the parts it has. -/
def OpenNode.close (o : OpenNode) : Node :=
  if o.isMapping then .mapping o.mark o.tag (pairs o.parts.reverse)
  else .sequence o.mark o.tag o.parts.reverse

/-- Adds a complete node. -/
def add (b : Builder) (n : Node) : Builder :=
  match b.stack with
  | [] => { b with root := some n }
  | o :: rest => { b with stack := { o with parts := n :: o.parts } :: rest }

/-- Numbers the anchor of a node.  A name that was given before keeps the count. -/
def number (b : Builder) (p : Properties) : Builder × Option (Nat × Nat) :=
  match p.anchor with
  | some name =>
    let number := b.names.length
    ({ b with names := (name, number) :: b.names.filter (·.1 ≠ name) }, some (number, b.time))
  | none => (b, none)

/-- Remembers a complete node with an anchor. -/
def remember (b : Builder) (anchor : Option (Nat × Nat)) (n : Node) : Builder :=
  match anchor with
  | some (number, time) => { b with anchored := ⟨number, time, n⟩ :: b.anchored }
  | none => b

/-- Opens a collection. -/
def openNode (b : Builder) (mark : Mark) (p : Properties) (isMapping : Bool) : Builder :=
  let (b, anchor) := b.number p
  { b with stack := ⟨mark, p.tag, anchor, isMapping, []⟩ :: b.stack }

/-- Closes the innermost collection. -/
def closeNode (b : Builder) : Builder :=
  match b.stack with
  | o :: rest =>
    let n := OpenNode.close o
    ({ b with stack := rest }.remember o.anchor n).add n
  | [] => b

/-- Closes all collections after a fault. -/
def breakOff (b : Builder) (fault : Fault) : Builder :=
  b.stack.foldl
    (fun b _ =>
      match b.stack with
      | o :: _ =>
        if o.parts.head?.any fun n => n.fault?.isSome then b.closeNode
        else (b.add (.broken fault)).closeNode
      | [] => b)
    (if b.stack.isEmpty && b.root.isNone then b.add (.broken fault) else b)

/-- Adds what an event tells; an alias of an unknown name is a fault. -/
def event (b : Builder) (e : Event) : Except Fault Builder :=
  let b := { b with time := b.time + 1 }
  match e.kind with
  | .reference name =>
    match b.names.lookup name with
    | some number => .ok (b.add (.reference e.mark number))
    | none => .error (.unknownAnchor e.mark)
  | .scalar p text style =>
    let (b, anchor) := b.number p
    let n := .scalar e.mark p.tag text style
    .ok ((b.remember anchor n).add n)
  | .sequenceStart p => .ok (b.openNode e.mark p false)
  | .mappingStart p => .ok (b.openNode e.mark p true)
  | .sequenceEnd | .mappingEnd => .ok b.closeNode
  | .documentStart | .documentEnd | .streamEnd => .ok b

/-- The document that was built. -/
def document (b : Builder) (fault : Option Fault) (continues : Bool) : Document :=
  ⟨b.root.getD default, b.anchored, b.time, fault, continues⟩

/-- Builds the first document of some events. -/
def run (b : Builder) (fault : Option SyntaxFault) : List Event → Document
  | [] =>
    match fault with
    | some f => (b.breakOff (.notYaml f)).document (some (.notYaml f)) false
    | none => b.document none false
  | ⟨.documentStart, _⟩ :: rest => run b fault rest
  | ⟨.documentEnd, _⟩ :: rest => b.document none (rest.head?.map (·.kind) ≠ some .streamEnd)
  | ⟨.streamEnd, mark⟩ :: _ => (b.add (.absent mark)).document none false
  | e :: rest =>
    match b.event e with
    | .ok b => run b fault rest
    | .error f => (b.breakOff f).document (some f) false

end Builder

/-- The first document of a text. -/
def document (text : String) : Document :=
  let (events, fault) := events text
  Builder.fresh.run fault events

end IngressGuard.Yaml
