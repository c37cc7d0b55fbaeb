namespace Drift

inductive Severity where
  | error | warning | info
  deriving DecidableEq, Repr

namespace Severity

def all : List Severity := [.error, .warning, .info]

def name : Severity → String
  | error => "error"
  | warning => "warning"
  | info => "info"

end Severity

inductive Finding.Kind where
  | missingModule | extraCode | mismatchedName | missingFile | unexpectedFile
  | missingEndpoint | undocumentedEndpoint | missingFunction | signatureMismatch
  deriving DecidableEq, Repr

namespace Finding.Kind

def all : List Finding.Kind :=
  [.missingModule, .extraCode, .mismatchedName, .missingFile, .unexpectedFile,
   .missingEndpoint, .undocumentedEndpoint, .missingFunction, .signatureMismatch]

def name : Finding.Kind → String
  | missingModule => "MISSING_MODULE"
  | extraCode => "EXTRA_CODE"
  | mismatchedName => "MISMATCHED_NAME"
  | missingFile => "MISSING_FILE"
  | unexpectedFile => "UNEXPECTED_FILE"
  | missingEndpoint => "MISSING_ENDPOINT"
  | undocumentedEndpoint => "UNDOCUMENTED_ENDPOINT"
  | missingFunction => "MISSING_FUNCTION"
  | signatureMismatch => "SIGNATURE_MISMATCH"

end Finding.Kind

structure Finding where
  kind : Finding.Kind
  subject : String
  message : String
  severity : Severity
  remedy : String := ""
  deriving DecidableEq, Repr

/-- The counts of an inspection. A warning here is any finding that is no error. -/
structure Summary where
  totalModules : Int := 0
  matchingModules : Int := 0
  missingModules : Int := 0
  extraDirs : Int := 0
  totalFindings : Int := 0
  errors : Int := 0
  warnings : Int := 0
  languages : List (String × Int) := []
  missingEndpoints : Int := 0
  undocumentedEndpoints : Int := 0
  signatureMismatches : Int := 0
  deriving DecidableEq, Repr

structure Report where
  success : Bool
  findings : List Finding := []
  summary : Summary := {}
  deriving DecidableEq, Repr

end Drift
