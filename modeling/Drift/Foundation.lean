import Drift.Document.Load
import Drift.Failure
import Drift.Record.Readers

namespace Drift.Foundation

open Files

def moduleOf? (file : String) : Option String :=
  match splitExtension file with
  | (stem, ".md") => some stem
  | _ => none

/-- The modules of a foundation, in the order of their names; without a foundation there are none. -/
def modules (t : Tree) (foundation : Path) : Except Failure (List String) := do
  if ← Failure.ofProbe (t.probeExists foundation) then
    let (_, entries) ← (t.list foundation).mapError .foundationUnlisted
    let files ← (entries.map (·.1)).filterM fun n => Failure.ofProbe (t.probeFile (foundation.child n))
    return sortNames (files.filterMap moduleOf?)
  else return []

def descriptorPath (foundation : Path) (moduleName : String) : Path :=
  foundation ++ Path.ofString (moduleName ++ ".module.yaml")

def named (moduleName : String) (d : Descriptor) : Descriptor :=
  if d.name.isEmpty then { d with name := moduleName } else d

def descriptor? (t : Tree) (foundation : Path) (moduleName : String) : Except Failure (Option Descriptor) := do
  let file := descriptorPath foundation moduleName
  if ← Failure.ofProbe (t.probeExists file) then
    let d ← (Document.readRecord t file Descriptor.read).mapError (.descriptor file.name)
    return some (named moduleName d)
  else return none

def expectations (t : Tree) (foundation : Path) : Except Failure (List (String × Expectation)) := do
  let found ← (← modules t foundation).mapM fun m => do
    match ← descriptor? t foundation m with
    | some d => return d.expectedFunctions.map fun e => (m, e)
    | none => return []
  return found.flatten

end Drift.Foundation
