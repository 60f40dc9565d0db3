import IngressGuard.Files
import IngressGuard.Policy.Reader

/-!
# Policy sources

A source gives the current policy in full whenever it is read, or says why it cannot.
-/

namespace IngressGuard

/-- A policy that its owner changes, and the fault that keeps it from being read, if any. -/
structure HeldPolicy where
  policy : PolicySnapshot
  fault : Option SourceError

/-- Where policies come from. -/
inductive PolicySource where
  | held (policy : HeldPolicy)
  /-- The file at a path. -/
  | file (path : String)

/-- The policy that the file at a path holds. -/
def Files.policy (m : Files) (path : String) : Except SourceError PolicySnapshot :=
  match m.read path with
  | .error fault => .error (.unreadable path fault.message)
  | .ok text => PolicyDocument.load text

namespace PolicySource

/-- A policy that can be read. -/
def ofPolicy (policy : PolicySnapshot) : PolicySource := .held ⟨policy, none⟩

/-- What reading a source gives. -/
def read (s : PolicySource) (files : Files) : Except SourceError PolicySnapshot :=
  match s with
  | .held ⟨_, some fault⟩ => .error fault
  | .held ⟨policy, none⟩ => .ok policy
  | .file path => files.policy path

/-- Changes a policy that is held. -/
def change (f : HeldPolicy → HeldPolicy) : PolicySource → PolicySource
  | .held policy => .held (f policy)
  | .file path => .file path

end PolicySource

end IngressGuard
