import Drift.Check.Files
import Drift.Code
import Drift.Foundation

namespace Drift

structure Reconciliation where
  total : Nat := 0
  matching : Nat := 0
  missing : Nat := 0
  extra : Nat := 0
  findings : List Finding := []
  deriving DecidableEq, Repr

namespace Check

open Files

def missingModule (moduleName : String) : Finding where
  kind := .missingModule
  subject := moduleName
  message := s!"Foundation spec '{moduleName}.md' exists but directory '{moduleName}/' not found in code"
  severity := .warning
  remedy := s!"Create directory '{moduleName}/' or remove the foundation spec"

def extraCode (moduleName : String) : Finding where
  kind := .extraCode
  subject := moduleName
  message := s!"Code directory '{moduleName}/' exists but no foundation spec '{moduleName}.md' found"
  severity := .info
  remedy := s!"Create foundation spec '{moduleName}.md' or remove the directory"

def describedFiles (t : Tree) (foundation : Path) (moduleName : String) (path : Path) :
    Except Failure (List Finding) := do
  match ← Foundation.descriptor? t foundation moduleName with
  | some d => moduleFiles t moduleName d path
  | none => return []

def declaredModule (t : Tree) (foundation : Path) (useDescriptors : Bool) (present : List (String × Path))
    (moduleName : String) : Except Failure (List Finding) :=
  match present.lookup moduleName with
  | none => .ok [missingModule moduleName]
  | some path => if useDescriptors then describedFiles t foundation moduleName path else .ok []

def modules (t : Tree) (root foundation : Path) (ignored : List String) (useDescriptors : Bool) :
    Logged Failure Reconciliation := do
  let declared ← Foundation.modules t foundation
  let present ← Code.modules t root ignored
  let found ← Logged.ofExcept (declared.mapM (declaredModule t foundation useDescriptors present))
  let matching := declared.filter fun m => (present.lookup m).isSome
  let missing := declared.filter fun m => (present.lookup m).isNone
  let extra := (present.map (·.1)).filter fun m => !declared.contains m
  Logged.note (.reconciled declared.length matching.length missing.length extra.length)
  return ⟨declared.length, matching.length, missing.length, extra.length, found.flatten ++ extra.map extraCode⟩

end Check

end Drift
