import Drift.Endpoint
import Drift.Finding
import Drift.Record.Basic
import Drift.Signature

namespace Drift

open Record

def blankIfNull : Value → Checked String := nullAs "" text

def emptyIfNull {α : Type} (s : Store) (r : Value → Checked α) : Value → Checked (List α) :=
  nullAs [] (Record.list s r)

namespace Endpoint

def Parameter.read (f : Fields) : Checked Endpoint.Parameter :=
  Endpoint.Parameter.mk
    <$> Record.required f "name" text
    <*> optional f "location" "query" text
    <*> optional f "required" false boolean
    <*> optional f "param_type" "string" text
    <*> optional f "description" "" text

def read (f : Fields) : Checked Endpoint :=
  Endpoint.mk
    <$> required f "method" text
    <*> required f "path" text
    <*> optional f "handler" "" text
    <*> optional f "description" "" text
    <*> optional f "file" "" text
    <*> optional f "line" 0 integer
    <*> optional f "language" none (orNull (among Language.all Language.name))
    <*> optional f "parameters" [] (Record.list f.store (record f.store "ApiParam" Parameter.read))
    <*> optional f "request_body" none (orNull text)
    <*> optional f "response_body" none (orNull text)

end Endpoint

def Visibility.read : Value → Checked Visibility := among Visibility.all Visibility.name

namespace Signature

def Parameter.read (f : Fields) : Checked Signature.Parameter :=
  Signature.Parameter.mk <$> optional f "name" "" text <*> optional f "type" "" text

def Result.read (f : Fields) : Checked Signature.Result :=
  Signature.Result.mk <$> optional f "type" "" text <*> optional f "name" "" text

def parameter (s : Store) : Value → Checked Signature.Parameter := record s "ParameterSpec" Parameter.read

def result (s : Store) : Value → Checked Signature.Result := record s "ReturnSpec" Result.read

def read (f : Fields) : Checked Signature :=
  Signature.mk
    <$> required f "name" text
    <*> optional f "parameters" [] (Record.list f.store (parameter f.store))
    <*> optional f "returns" [] (Record.list f.store (result f.store))
    <*> optional f "file" "" text
    <*> optional f "line" 0 integer
    <*> optional f "visibility" .pub Visibility.read

end Signature

def Expectation.read (f : Fields) : Checked Expectation :=
  Expectation.mk
    <$> required f "name" Record.text
    <*> optional f "language" "" blankIfNull
    <*> optional f "file_pattern" "" blankIfNull
    <*> optional f "parameters" [] (emptyIfNull f.store (Signature.parameter f.store))
    <*> optional f "returns" [] (emptyIfNull f.store (Signature.result f.store))
    <*> optional f "visibility" none (orNull Visibility.read)

def Descriptor.read (f : Fields) : Checked Descriptor :=
  Descriptor.mk
    <$> optional f "name" "" blankIfNull
    <*> optional f "description" "" blankIfNull
    <*> optional f "expected_files" [] (emptyIfNull f.store text)
    <*> optional f "expected_dirs" [] (emptyIfNull f.store text)
    <*> optional f "patterns" [] (emptyIfNull f.store text)
    <*> optional f "expected_functions" []
      (emptyIfNull f.store (record f.store "FunctionSpec" Expectation.read))

def Finding.read (f : Fields) : Checked Finding :=
  Finding.mk
    <$> required f "type" (among Finding.Kind.all Finding.Kind.name)
    <*> required f "module" text
    <*> required f "message" text
    <*> required f "severity" (among Severity.all Severity.name)
    <*> optional f "remediation" "" text

def Summary.read (f : Fields) : Checked Summary :=
  let count (name : String) : Checked Int := optional f name 0 integer
  Summary.mk
    <$> count "total_modules"
    <*> count "matching_modules"
    <*> count "missing_modules"
    <*> count "extra_code_dirs"
    <*> count "total_warnings"
    <*> count "error_count"
    <*> count "warning_count"
    <*> optional f "languages" [] (mapping f.store integer)
    <*> count "missing_endpoints"
    <*> count "undocumented_endpoints"
    <*> count "signature_mismatches"

def Report.read (f : Fields) : Checked Report :=
  Report.mk
    <$> required f "success" boolean
    <*> optional f "warnings" [] (Record.list f.store (record f.store "DriftWarning" Finding.read))
    <*> optional f "summary" {} (record f.store "Summary" Summary.read)

end Drift
