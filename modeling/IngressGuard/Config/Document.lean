import IngressGuard.Config.Setting
import IngressGuard.Text.Fields
import IngressGuard.Yaml.Decoder

/-!
# Settings from documents

A YAML document gives settings.  A scalar gives what it stands for, so a number is not a text, and
of several values for the same key the last one counts.
-/

namespace IngressGuard

open Yaml

/-- The setting that a scalar gives. -/
def SettingValue.ofMeaning (text : String) : Meaning → SettingValue
  | .null => .nothing
  | .bool b => .bool b
  | .unsigned n => .unsigned n
  | .signed n => .signed n
  | .float x => .float x
  | .text => .text text

namespace Setting

/-- The field of a record whose value is given in place of the record. -/
def standInField : String := "___figment_value_value"

/-- The field of a record that attributes this value to a layer, by the number of the layer. -/
def layerField : String := "___figment_value_id"

/-- The layer of a document, and all layers in the order of their numbers, which begin at one. -/
structure Numbering where
  own : Layer
  layers : List Layer

/-- The layer with a number; zero stands for the layer of the document. -/
def Numbering.layer (numbering : Numbering) : Nat → Layer
  | 0 => numbering.own
  | n + 1 => (numbering.layers[n]?).getD .untold

/-- What is read of a record: its fields, the value that is given in place of it, and the layer that
this is attributed to. -/
structure RecordDraft where
  fields : List (String × Setting)
  standIn : Option Setting
  layer : Option Layer

/-- The setting that a record of a layer comes to. -/
def RecordDraft.setting (own : Layer) (draft : RecordDraft) : Setting :=
  match draft.standIn, draft.layer with
  | some s, some layer => s.attributed layer
  | some s, none => s
  | none, _ => .record own draft.fields

/-- The greatest number of a layer. -/
def maxLayerNumber : Nat := Nat.pow 2 62 - 1

/-- Reads a layer. -/
def decodeLayer (numbering : Numbering) (s : Spot) : Decode Layer := do
  let s ← Decode.resolve s
  let expected := "a 64-bit metadata id integer"
  Decode.located (Decode.markOf s.node) s.path do
    if (Decode.localName? s.node).isSome then
      Decode.mismatch s!"invalid type: enum, expected {expected}"
    match s.node with
    | .scalar _ tag text style =>
      match Decode.meaning tag text style with
      | .ok (.unsigned n) =>
        if n < Nat.pow 2 64 then return numbering.layer (n % (maxLayerNumber + 1))
        Decode.unexpected s.node expected
      | _ => Decode.unexpected s.node expected
    | n => Decode.unexpected n expected

/-- Reads a setting that is not nested deeper than a number of collections.  A tag of the document
alone gives names of fields, separated by points, below which the setting is. -/
def decode (numbering : Numbering) : Nat → Spot → Decode Setting
  | 0, s => throw (.tooDeep (Decode.markOf s.node))
  | depth + 1, s => do
    let s ← Decode.resolve s
    let own := numbering.own
    Decode.located (Decode.markOf s.node) s.path do
      let untagged ← match s.node with
        | .scalar _ tag text style =>
          match Decode.meaning tag text style with
          | .ok m => pure (.value own (.ofMeaning text m))
          | .error problem => Decode.mismatch problem
        | .sequence .. => .list own <$> Decode.list (decode numbering depth) s
        | .mapping .. => do
          let draft ← decodeFields numbering depth s
          pure (draft.setting own)
        | n => Decode.unexpected n "any value"
      match Decode.localName? s.node with
      | some name =>
        let names := (Text.fields '.' name.toList).map String.ofList
        return .nested own (names.takeWhile (· ≠ "")) untagged
      | none => return untagged
where
  /-- Reads a record. -/
  decodeFields (numbering : Numbering) (depth : Nat) (s : Spot) : Decode RecordDraft :=
    let entry (draft : RecordDraft) (k v : Spot) : Decode RecordDraft := do
      let name ← Decode.text "a string" k
      if name = layerField then
        return { draft with layer := ← decodeLayer numbering v }
      let value ← decode numbering depth v
      if name = standInField then return { draft with standIn := value }
      return { draft with fields := putField name value draft.fields }
    Decode.entries "a map" entry ⟨[], none, none⟩ (fun draft => return draft) s

/-- Reads the record that is a whole document.  All its fields are ordinary ones. -/
def decodeRoot (numbering : Numbering) (s : Spot) : Decode Setting :=
  let entry (fields : List (String × Setting)) (k v : Spot) : Decode (List (String × Setting)) := do
    return putField (← Decode.text "a string" k) (← decode numbering (maxDepth + 1) v) fields
  .record numbering.own <$> Decode.entries "a map" entry [] (fun fields => return fields) s

/-- The settings that a text with a YAML document gives. -/
def ofYaml (numbering : Numbering) (text : String) : Reading Setting :=
  match Yaml.decode (decodeRoot numbering) text with
  | .ok s => .ok s
  | .error fault => .error ⟨.unreadable fault.message, [], numbering.own⟩

end Setting

end IngressGuard
