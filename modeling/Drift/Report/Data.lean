import Drift.Endpoint
import Drift.Finding
import Drift.Json.Pretty

namespace Drift

def Finding.json (f : Finding) : Json :=
  .obj [("type", .str f.kind.name), ("module", .str f.subject), ("message", .str f.message),
    ("severity", .str f.severity.name), ("remediation", .str f.remedy)]

def Summary.json (s : Summary) : Json :=
  .obj [("total_modules", .int s.totalModules), ("matching_modules", .int s.matchingModules),
    ("missing_modules", .int s.missingModules), ("extra_code_dirs", .int s.extraDirs),
    ("total_warnings", .int s.totalFindings), ("error_count", .int s.errors),
    ("warning_count", .int s.warnings),
    ("languages", .obj (s.languages.map fun (l, n) => (l, .int n))),
    ("missing_endpoints", .int s.missingEndpoints),
    ("undocumented_endpoints", .int s.undocumentedEndpoints),
    ("signature_mismatches", .int s.signatureMismatches)]

def Report.json (r : Report) : Json :=
  .obj [("success", .bool r.success), ("warnings", .arr (r.findings.map Finding.json)),
    ("summary", r.summary.json)]

def Endpoint.json (e : Endpoint) : Json :=
  .obj [("method", .str e.method), ("path", .str e.path), ("handler", .str e.handler), ("file", .str e.file),
    ("line", .int e.line), ("language", match e.language with | some l => .str l.name | none => .null)]

def Endpoint.listing (e : Endpoint) : String :=
  let gap := String.ofList (List.replicate (7 - e.method.length) ' ')
  let handler := if e.handler.isEmpty then "" else " -> " ++ e.handler
  s!"{e.method}{gap} {e.path}{handler}  ({e.file}:{Text.intText e.line})"

end Drift
