import Drift.Check.Contracts
import Drift.Check.Expectations
import Drift.Check.Modules
import Drift.Settings

namespace Drift

open Files

namespace Options

def withContracts (o : Options) : Bool := o.checkApi || 2 ≤ o.depth

def withSignatures (o : Options) : Bool := o.checkSignatures || 3 ≤ o.depth

end Options

namespace Inspection

def contracts (t : Tree) (detectors : List Language) (o : Options) : Logged Failure (List Finding) :=
  if o.withContracts then do
    Logged.note .checkingContracts
    Check.contracts t detectors o.root o.blueprintsPath o.foundation o.ignoredDirs
  else return []

def signatures (t : Tree) (detectors : List Language) (o : Options) : Logged Failure (List Finding) :=
  if o.withSignatures then do
    Logged.note .checkingSignatures
    Check.expectations t detectors o.root o.foundation o.ignoredDirs
  else return []

def count (kind : Finding.Kind) (findings : List Finding) : Nat := findings.countP (·.kind == kind)

def report (languages : List (Language × Nat)) (r : Reconciliation) (api functions : List Finding) : Report :=
  let findings := r.findings ++ api ++ functions
  let errors := findings.countP (·.severity == .error)
  { success := errors == 0
    findings
    summary := {
      totalModules := r.total
      matchingModules := r.matching
      missingModules := r.missing
      extraDirs := r.extra
      totalFindings := findings.length
      errors
      warnings := (findings.length : Int) - errors
      languages := languages.map fun (l, n) => (l.name, (n : Int))
      missingEndpoints := count .missingEndpoint api
      undocumentedEndpoints := count .undocumentedEndpoint api
      signatureMismatches := count .signatureMismatch functions } }

def run (t : Tree) (detectors : List Language) (o : Options) : Logged Failure Report := do
  Logged.note (.inspecting o.root)
  let languages ← Code.languages t detectors o.root o.ignoredDirs
  let reconciliation ← Check.modules t o.root o.foundation o.ignoredDirs o.useDescriptors
  let api ← contracts t detectors o
  let functions ← signatures t detectors o
  return report languages reconciliation api functions

end Inspection

end Drift
