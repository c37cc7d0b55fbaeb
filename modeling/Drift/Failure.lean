import Drift.Document.Failure

namespace Drift

open Files

inductive Failure where
  /-- A path cannot even be asked for. -/
  | unreachable (e : FileError)
  /-- The root of the code is no directory. -/
  | rootless (root : Path)
  /-- The directories of the code cannot be listed. -/
  | codeUnlisted (e : FileError)
  | foundationUnlisted (e : FileError)
  | settings (e : Document.RecordFailure)
  | descriptor (file : String) (e : Document.RecordFailure)
  /-- An API document is wrong in a way that cannot be passed over. -/
  | documentation (e : Document.EndpointsFailure)

namespace Failure

def isExpected : Failure → Bool
  | unreachable _ => false
  | settings e => e.isExpected
  | descriptor _ e => e.isExpected
  | documentation _ => false
  | _ => true

def settingsFile : String := "driftscan.yaml"

def message (word : Detail → String) : Failure → String
  | unreachable e => e.message
  | rootless root => s!"cannot walk {root.text}: not a directory"
  | codeUnlisted e => s!"failed to list code directories in {e.path.text}: {e.message}"
  | foundationUnlisted e => s!"failed to read foundation directory {e.path.text}: {e.message}"
  | settings (.unreadable e) => s!"failed to read {settingsFile}: " ++ e.message word
  | settings (.notMapping type) => s!"{settingsFile} must contain a mapping, got {type}"
  | settings .namelessField => s!"a field name in {settingsFile} is no text"
  | settings (.invalid faults) => s!"invalid {settingsFile}: " ++ word (.faults faults)
  | descriptor file (.unreadable e) => s!"failed to read module descriptor {file}: " ++ e.message word
  | descriptor file (.notMapping _) => s!"module descriptor {file} must contain a mapping"
  | descriptor file .namelessField => s!"a field name in {file} is no text"
  | descriptor file (.invalid faults) => s!"invalid module descriptor {file}: " ++ word (.faults faults)
  | documentation e => e.message word

def hint : Failure → String
  | rootless _ => "Check that the project directory exists and is readable."
  | codeUnlisted _ => "Check that the project directory exists and is readable."
  | foundationUnlisted _ =>
    "Check that the foundation directory is readable, or run \x60driftscan inspect\x60 from the project root."
  | settings _ => "Your driftscan.yaml configuration is invalid. Check the format and try again."
  | descriptor _ _ => "Fix the YAML syntax or field types in the module descriptor."
  | _ => "An unexpected error occurred. Re-run with --verbose for more details."

def ofProbe {α : Type} (x : Except FileError α) : Except Failure α := x.mapError unreachable

end Failure

end Drift
