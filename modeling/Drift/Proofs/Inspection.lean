import Drift.Inspection
import Drift.Proofs.Check.Grades
import Drift.Proofs.Code
import Mathlib

namespace Drift

structure Report.Consistent (r : Report) : Prop where
  total : r.summary.totalFindings = r.findings.length
  split : r.summary.totalFindings = r.summary.errors + r.summary.warnings
  errors : r.summary.errors = r.findings.countP (·.severity == .error)
  success : r.success = true ↔ r.summary.errors = 0
  fatal : r.summary.errors = 0 ↔ ∀ f ∈ r.findings, f.kind ≠ .missingEndpoint ∧ f.kind ≠ .missingFunction
  modules : r.summary.totalModules = r.summary.matchingModules + r.summary.missingModules
  missingModules : r.summary.missingModules = Inspection.count .missingModule r.findings
  extraDirs : r.summary.extraDirs = Inspection.count .extraCode r.findings
  missingEndpoints : r.summary.missingEndpoints = Inspection.count .missingEndpoint r.findings
  undocumentedEndpoints : r.summary.undocumentedEndpoints = Inspection.count .undocumentedEndpoint r.findings
  signatureMismatches : r.summary.signatureMismatches = Inspection.count .signatureMismatch r.findings

namespace Inspection

open Files

theorem count_append (kind : Finding.Kind) (fs gs : List Finding) :
    count kind (fs ++ gs) = count kind fs + count kind gs := by
  rw [count, count, count, List.countP_append]

theorem count_of_graded {kinds : List Finding.Kind} {fs : List Finding} (graded : ∀ f ∈ fs, f.Graded kinds)
    {kind : Finding.Kind} (other : kind ∉ kinds) : count kind fs = 0 := by
  rw [count, List.countP_eq_zero]
  intro f mem same
  rw [beq_iff_eq] at same
  exact other (same ▸ (graded f mem).mem)

variable {t : Tree} {detectors : List Language} {o : Options}

theorem contracts_graded {fs : List Finding} (h : (contracts t detectors o).outcome = .ok fs) :
    ∀ f ∈ fs, f.Graded Check.contractKinds := by
  rw [contracts] at h
  by_cases asked : o.withContracts = true
  · rw [if_pos asked] at h
    obtain ⟨-, -, h⟩ := Logged.ok_of_bind h
    exact Check.contracts_graded h
  · rw [if_neg asked] at h
    cases h
    intro f mem
    cases mem

theorem signatures_graded {fs : List Finding} (h : (signatures t detectors o).outcome = .ok fs) :
    ∀ f ∈ fs, f.Graded Check.functionKinds := by
  rw [signatures] at h
  by_cases asked : o.withSignatures = true
  · rw [if_pos asked] at h
    obtain ⟨-, -, h⟩ := Logged.ok_of_bind h
    exact Check.expectations_graded h
  · rw [if_neg asked] at h
    cases h
    intro f mem
    cases mem

theorem ok_of_run {r : Report} (h : (run t detectors o).outcome = .ok r) :
    ∃ languages reconciliation api functions,
      Code.languages t detectors o.root o.ignoredDirs = .ok languages ∧
      (Check.modules t o.root o.foundation o.ignoredDirs o.useDescriptors).outcome = .ok reconciliation ∧
      (contracts t detectors o).outcome = .ok api ∧ (signatures t detectors o).outcome = .ok functions ∧
      r = report languages reconciliation api functions := by
  obtain ⟨-, -, h⟩ := Logged.ok_of_bind h
  obtain ⟨languages, counted, h⟩ := Logged.ok_of_bind h
  obtain ⟨reconciliation, compared, h⟩ := Logged.ok_of_bind h
  obtain ⟨api, checked, h⟩ := Logged.ok_of_bind h
  obtain ⟨functions, searched, h⟩ := Logged.ok_of_bind h
  cases h
  exact ⟨languages, reconciliation, api, functions, counted, compared, checked, searched, rfl⟩

theorem discloses_of_run {r : Report} (h : (run t detectors o).outcome = .ok r) :
    ∀ f ∈ r.findings, Discloses f.severity f.message f.remedy := by
  obtain ⟨languages, m, api, functions, -, compared, checked, searched, rfl⟩ := ok_of_run h
  intro f mem
  rcases List.mem_append.1 mem with mem | mem
  · rcases List.mem_append.1 mem with mem | mem
    · exact ((Check.modules_counts compared).1 f mem).discloses
    · exact (contracts_graded checked f mem).discloses
  · exact (signatures_graded searched f mem).discloses

/-- A report is consistent if each check keeps to its kinds and the comparison of the modules counts well. -/
theorem report_consistent {languages : List (Language × Nat)} {m : Reconciliation} {api functions : List Finding}
    (modules : ∀ f ∈ m.findings, f.Graded Check.moduleKinds) (total : m.total = m.matching + m.missing)
    (missing : m.missing = count .missingModule m.findings) (extra : m.extra = count .extraCode m.findings)
    (contracts : ∀ f ∈ api, f.Graded Check.contractKinds) (signatures : ∀ f ∈ functions, f.Graded Check.functionKinds) :
    (report languages m api functions).Consistent := by
  let r := report languages m api functions
  have counted : ∀ kind, count kind r.findings = count kind m.findings + count kind api + count kind functions := by
    intro kind
    rw [← count_append, ← count_append]
    rfl
  have graded : ∀ f ∈ r.findings, (f.severity = .error ↔ f.kind.isFatal = true) := by
    intro f mem
    rcases List.mem_append.1 mem with mem | mem
    · rcases List.mem_append.1 mem with mem | mem
      · exact (modules f mem).severity
      · exact (contracts f mem).severity
    · exact (signatures f mem).severity
  have errors : r.summary.errors = 0 ↔ ∀ f ∈ r.findings, f.severity ≠ .error := by
    change ((r.findings.countP (·.severity == .error) : Nat) : Int) = 0 ↔ _
    rw [Int.natCast_eq_zero, List.countP_eq_zero]
    simp
  constructor
  case total => rfl
  case split =>
    change (r.findings.length : Int) =
      r.findings.countP (·.severity == .error) + (r.findings.length - r.findings.countP (·.severity == .error))
    omega
  case errors => rfl
  case success =>
    change (r.findings.countP (·.severity == .error) == 0) = true ↔
      ((r.findings.countP (·.severity == .error) : Nat) : Int) = 0
    rw [beq_iff_eq, Int.natCast_eq_zero]
  case fatal =>
    rw [errors]
    apply forall_congr'
    intro f
    apply imp_congr_right
    intro mem
    rw [ne_eq, graded f mem]
    cases f.kind <;> decide
  case modules =>
    change (m.total : Int) = m.matching + m.missing
    omega
  -- each counter is kept by one check, and the other two come to no finding of its kind
  case missingModules =>
    rw [counted, count_of_graded contracts (by decide), count_of_graded signatures (by decide)]
    change (m.missing : Int) = _
    omega
  case extraDirs =>
    rw [counted, count_of_graded contracts (by decide), count_of_graded signatures (by decide)]
    change (m.extra : Int) = _
    omega
  case missingEndpoints =>
    rw [counted, count_of_graded modules (by decide), count_of_graded signatures (by decide)]
    change ((count .missingEndpoint api : Nat) : Int) = _
    omega
  case undocumentedEndpoints =>
    rw [counted, count_of_graded modules (by decide), count_of_graded signatures (by decide)]
    change ((count .undocumentedEndpoint api : Nat) : Int) = _
    omega
  case signatureMismatches =>
    rw [counted, count_of_graded modules (by decide), count_of_graded contracts (by decide)]
    change ((count .signatureMismatch functions : Nat) : Int) = _
    omega

theorem sum_named (languages : List (Language × Nat)) :
    ((languages.map fun (l, n) => (l.name, (n : Int))).map fun (i : String × Int) => i.2).sum =
      Code.total languages := by
  induction languages with
  | nil => rfl
  | cons i languages ih =>
    rw [List.map_cons, List.map_cons, List.sum_cons, ih]
    simp [Code.total]

/-- The report of an inspection is consistent, and its languages add up to the files that were walked and
that some detector accepts. -/
theorem summary_agrees_with_findings (t : Tree) (detectors : List Language) (o : Options) (r : Report)
    (returned : (run t detectors o).outcome = .ok r) :
    r.Consistent ∧ ∃ files, Code.files t o.root o.ignoredDirs = .ok files ∧
      (r.summary.languages.map (·.2)).sum = files.countP fun p => detectors.any (·.accepts p.text) := by
  obtain ⟨languages, m, api, functions, counted, compared, checked, searched, rfl⟩ := ok_of_run returned
  obtain ⟨modules, total, missing, extra⟩ := Check.modules_counts compared
  refine ⟨report_consistent modules total missing extra (contracts_graded checked) (signatures_graded searched), ?_⟩
  obtain ⟨files, walked, sum⟩ := Code.total_languages counted
  refine ⟨files, walked, ?_⟩
  rw [← sum]
  exact sum_named languages

/-- A project with one file of code, and a foundation that documents an endpoint, `### GET /`. -/
def smallProject : Tree where
  entries := [("a.go", .file []), ("f", .dir [("ARCHITECTURE.md", .file [35, 35, 35, 32, 71, 69, 84, 32, 47])])]

def smallOptions : Options where
  root := ⟨1, []⟩
  foundation := ⟨1, ["f"]⟩
  ignoredDirs := []
  depth := 3

theorem summary_agrees_with_findings_small : ∃ r, (run smallProject [.go] smallOptions).outcome = .ok r ∧
    r.summary.errors = 1 ∧ r.Consistent ∧
    ∃ files, Code.files smallProject smallOptions.root smallOptions.ignoredDirs = .ok files ∧
      (r.summary.languages.map (·.2)).sum = files.countP fun p => [Language.go].any (·.accepts p.text) := by
  have evaluated : (run smallProject [.go] smallOptions).outcome.toOption.map (·.summary.errors) = some 1 := by cbv
  obtain ⟨r, value, errors⟩ := Option.map_eq_some_iff.1 evaluated
  have returned : (run smallProject [.go] smallOptions).outcome = .ok r := by
    cases outcome : (run smallProject [.go] smallOptions).outcome with
    | error e =>
      rw [outcome] at value
      cases value
    | ok s =>
      rw [outcome] at value
      cases value
      rfl
  exact ⟨r, returned, errors, summary_agrees_with_findings smallProject [.go] smallOptions r returned⟩

end Inspection

end Drift
