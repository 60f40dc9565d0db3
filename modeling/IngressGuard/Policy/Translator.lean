import IngressGuard.Policy.Translation

/-!
# Translating with a memory

Deny lists of all interfaces are computed by one translator, which parses a selector once and
remembers it for later cycles, of whatever interface.  A selector that does not parse is not
remembered.
-/

namespace IngressGuard

/-- Selectors by their texts. -/
structure Translator where
  compiled : NameMap Selector
  /-- What is remembered of a text is what it parses to. -/
  parsed : ∀ text sel, compiled[text]? = some sel → Selector.parse text = .ok sel

namespace Translator

/-- Nothing is remembered. -/
def fresh : Translator where
  compiled := ∅
  parsed := by
    intro text sel h
    simp at h

/-- Remembers a selector. -/
def remember (t : Translator) {text : String} {sel : Selector}
    (h : Selector.parse text = .ok sel) : Translator where
  compiled := t.compiled.insert text sel
  parsed := by
    intro other sel' hother
    by_cases heq : other = text
    · subst heq
      rw [NameMap.getElem?_insert_same] at hother
      cases hother
      exact h
    · rw [NameMap.getElem?_insert_other heq] at hother
      exact t.parsed other sel' hother

/-- Parses a selector, unless it is remembered. -/
def compile (t : Translator) (text : String) : Except SelectorError Selector × Translator :=
  match t.compiled[text]? with
  | some sel => (.ok sel, t)
  | none =>
    match h : Selector.parse text with
    | .ok sel => (.ok sel, t.remember h)
    | .error cause => (.error cause, t)

/-- Adds what rules pick from address sets to a deny list, up to the first rule whose selector does
not parse. -/
def joinRules (sets : List AddressSet) :
    List BlockRule → DenyList → Translator → Except TranslateError DenyList × Translator
  | [], d, t => (.ok d, t)
  | rule :: rest, d, t =>
    match t.compile rule.selector with
    | (.error cause, t) => (.error (.invalidSelector rule.name cause), t)
    | (.ok sel, t) =>
      let entries := (sel.translate sets rule.family).entries
      joinRules sets rest (d.set rule.family (d.get rule.family ∪ entries)) t

/-- The deny list of an interface, and what is remembered after it. -/
def desiredState (t : Translator) (s : PolicySnapshot) (interface : String) :
    Except TranslateError DenyList × Translator :=
  joinRules s.setList (s.rulesFor interface) DenyList.empty t

end Translator

end IngressGuard
