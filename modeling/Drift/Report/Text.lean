import Drift.Finding
import Drift.Report.Terminal
import Drift.Text.Number

namespace Drift

namespace Severity

def title : Severity → String
  | error => "Errors:"
  | warning => "Warnings:"
  | info => "Info:"

def colour : Severity → Terminal.Colour
  | error => .red
  | warning => .yellow
  | info => .cyan

end Severity

def languageOrder (a b : String × Int) : Bool := a.1 < b.1 || (a.1 == b.1 && a.2 ≤ b.2)

def languagesLine (languages : List (String × Int)) : String :=
  let shown := (languages.mergeSort languageOrder).map fun (l, n) => s!"{l} ({Text.intText n} files)"
  "Languages detected: " ++ " | ".intercalate shown

def Finding.lines (f : Finding) : List String :=
  s!"  [{f.kind.name}] {f.subject}: {f.message}" ::
    if f.remedy ≠ "" ∧ f.severity ≠ .info then [s!"    -> {f.remedy}"] else []

namespace Report

def isSolid (r : Report) : Bool := r.success && r.findings.isEmpty

def solidLines (s : Summary) : List String :=
  [Terminal.bold .green "Foundation is solid."] ++
    (if s.languages.isEmpty then [] else ["", languagesLine s.languages]) ++
    ["", s!"Summary: {Text.intText s.totalModules} modules checked, all in sync"]

def titled (findings : List Finding) (severity : Severity) : List String :=
  match findings.filter (·.severity == severity) with
  | [] => []
  | group => Terminal.bold severity.colour severity.title :: group.flatMap Finding.lines ++ [""]

def countLines (s : Summary) : List String :=
  let n := Text.intText
  ["Summary:",
    s!"  Total modules: {n s.totalModules}",
    s!"  Matching: {n s.matchingModules}",
    s!"  Missing: {n s.missingModules}",
    s!"  Extra code dirs: {n s.extraDirs}"] ++
  (if s.missingEndpoints ≠ 0 ∨ s.undocumentedEndpoints ≠ 0 then
    [s!"  Missing endpoints: {n s.missingEndpoints}",
     s!"  Undocumented endpoints: {n s.undocumentedEndpoints}"]
  else []) ++
  (if s.signatureMismatches ≠ 0 then [s!"  Signature mismatches: {n s.signatureMismatches}"] else []) ++
  [s!"  Total warnings: {n s.totalFindings} (errors: {n s.errors}, warnings: {n s.warnings})"]

def driftLines (r : Report) : List String :=
  [Terminal.bold .yellow "Foundation drift detected:", ""] ++
    (if r.summary.languages.isEmpty then [] else [languagesLine r.summary.languages, ""]) ++
    Severity.all.flatMap (titled r.findings) ++ countLines r.summary

def text (r : Report) : String :=
  "\n".intercalate (if r.isSolid then solidLines r.summary else driftLines r)

end Report

end Drift
