import IngressGuard.Net.InterfaceName
import IngressGuard.Policy

/-!
# Policies that cannot be used

A policy may be impossible to read, may not be written as a policy, or may name something that
cannot be an interface.  Then it is refused as a whole.
-/

namespace IngressGuard

/-- Why a source gives no policy. -/
inductive SourceError where
  | unreadable (path detail : String)
  | malformed (detail : String)
  | invalidInterface (rule interface : String)
  deriving DecidableEq, Repr

/-- What a source error tells an operator. -/
def SourceError.message : SourceError → String
  | .unreadable path detail => s!"Failed to read policy file {path}: {detail}"
  | .malformed detail => s!"Failed to parse policy: {detail}"
  | .invalidInterface rule interface =>
    s!"Rule '{rule}' names an invalid interface '{interface}'"

/-- A source error in reports. -/
def SourceError.tree (e : SourceError) : Tree :=
  match e with
  | .unreadable .. => .failure "Io" e.message []
  | .malformed _ => .record [("error", "Parse")]
  | .invalidInterface .. => .failure "InvalidInterface" e.message []

/-- The snapshot of a document, unless a rule names something that cannot be an interface. -/
def PolicyDocument.check (d : PolicyDocument) : Except SourceError PolicySnapshot :=
  match d.rules.find? fun rule => !isInterfaceName rule.interface with
  | some rule => .error (.invalidInterface rule.name rule.interface)
  | none => .ok (PolicySnapshot.ofDocument d)

end IngressGuard
