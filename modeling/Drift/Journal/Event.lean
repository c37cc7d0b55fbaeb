import Drift.Document.Failure
import Drift.Journal
import Drift.Source.CSharp

namespace Drift.Journal

open Files

inductive Event where
  | noSettings (root : Path)
  | inspecting (root : Path)
  | checkingContracts
  | checkingSignatures
  | fileSkipped (e : FileError)
  | signaturesSkipped (path : Path) (e : Source.CSharp.UnknownVisibility)
  | endpointsFound (count : Nat)
  | signaturesFound (count : Nat)
  | reconciled (total matching missing extra : Nat)
  | documentSkipped (path : Path) (e : Document.EndpointsFailure)
  | documentedFound (count : Nat)
  | nothingDocumented
  | nothingExpected

namespace Event

def level : Event → Int
  | noSettings _ => debug
  | fileSkipped _ => debug
  | signaturesSkipped _ _ => debug
  | documentSkipped _ _ => warning
  | _ => info

def part : Event → String
  | noSettings _ => "config"
  | inspecting _ => "inspector"
  | checkingContracts => "inspector"
  | checkingSignatures => "inspector"
  | fileSkipped _ => "analyzer"
  | signaturesSkipped _ _ => "analyzer"
  | endpointsFound _ => "analyzer"
  | signaturesFound _ => "analyzer"
  | reconciled _ _ _ _ => "modules"
  | documentSkipped _ _ => "contracts"
  | documentedFound _ => "contracts"
  | nothingDocumented => "contracts"
  | nothingExpected => "signatures"

def message (word : Detail → String) : Event → String
  | noSettings root => s!"No driftscan.yaml in {root.text}, using defaults"
  | inspecting root => s!"Inspecting {root.text}"
  | checkingContracts => "Validating API contracts"
  | checkingSignatures => "Validating function signatures"
  | fileSkipped e => s!"Skipping unreadable file {e.path.text}: {e.message}"
  | signaturesSkipped path e => s!"Skipping functions in {path.text}: {e.message}"
  | endpointsFound count => s!"Found {Text.natText count} endpoints in code"
  | signaturesFound count => s!"Found {Text.natText count} functions in code"
  | reconciled total matching missing extra =>
    s!"Reconciled {Text.natText total} foundation modules: {Text.natText matching} matching, " ++
      s!"{Text.natText missing} missing, {Text.natText extra} extra"
  | documentSkipped path e => s!"Skipping unparseable API document {path.text}: " ++ e.message word
  | documentedFound count => s!"Found {Text.natText count} documented endpoints"
  | nothingDocumented => "No API documentation found, skipping contract validation"
  | nothingExpected => "No expected functions declared, skipping signature validation"

def record (word : Detail → String) (e : Event) : Record := ⟨e.level, "driftscan." ++ e.part, e.message word⟩

end Event

end Drift.Journal
