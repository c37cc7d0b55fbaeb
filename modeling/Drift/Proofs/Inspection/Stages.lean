import Drift.Proofs.Inspection

namespace Drift

structure Options.Within (o p : Options) : Prop where
  root : o.root = p.root
  foundation : o.foundation = p.foundation
  blueprints : o.blueprints = p.blueprints
  ignoredDirs : o.ignoredDirs = p.ignoredDirs
  useDescriptors : o.useDescriptors = p.useDescriptors
  contracts : o.checkApi = true ∨ 2 ≤ o.depth → p.checkApi = true ∨ 2 ≤ p.depth
  signatures : o.checkSignatures = true ∨ 3 ≤ o.depth → p.checkSignatures = true ∨ 3 ≤ p.depth

theorem Options.withContracts_iff {o : Options} : o.withContracts = true ↔ o.checkApi = true ∨ 2 ≤ o.depth := by
  simp [withContracts]

theorem Options.withSignatures_iff {o : Options} :
    o.withSignatures = true ↔ o.checkSignatures = true ∨ 3 ≤ o.depth := by
  simp [withSignatures]

theorem Options.Within.blueprintsPath {o p : Options} (within : o.Within p) : o.blueprintsPath = p.blueprintsPath := by
  rw [Options.blueprintsPath, Options.blueprintsPath, within.blueprints, within.root]

/-- One report holds the findings of another, and says the same of modules and languages. -/
structure Report.Extends (r q : Report) : Prop where
  findings : q.findings.Sublist r.findings
  totalModules : q.summary.totalModules = r.summary.totalModules
  matchingModules : q.summary.matchingModules = r.summary.matchingModules
  missingModules : q.summary.missingModules = r.summary.missingModules
  extraDirs : q.summary.extraDirs = r.summary.extraDirs
  languages : q.summary.languages = r.summary.languages
  success : r.success = true → q.success = true

namespace Inspection

open Files

variable {t : Tree} {detectors : List Language} {o p : Options}

def resultOr {α : Type} (default : α) (check : Logged Failure α) : α := check.outcome.toOption.getD default

theorem resultOr_of_ok {α : Type} {default a : α} {check : Logged Failure α} (h : check.outcome = .ok a) :
    resultOr default check = a := by
  rw [resultOr, h]
  rfl

theorem ok_of_toOption {α : Type} {x : Except Failure α} {a : α} (h : x.toOption = some a) : x = .ok a := by
  cases x with
  | error e => cases h
  | ok b =>
    cases h
    rfl

def onDemand (asked : Bool) (check : Logged Failure (List Finding)) : Except Failure (List Finding) :=
  if asked then check.outcome else .ok []

theorem contracts_outcome (t : Tree) (detectors : List Language) (o : Options) :
    (contracts t detectors o).outcome = onDemand o.withContracts
      (Check.contracts t detectors o.root o.blueprintsPath o.foundation o.ignoredDirs) := by
  rw [contracts, onDemand]
  cases o.withContracts with
  | true => exact Logged.outcome_bind_of_ok rfl _
  | false => rfl

theorem signatures_outcome (t : Tree) (detectors : List Language) (o : Options) :
    (signatures t detectors o).outcome = onDemand o.withSignatures
      (Check.expectations t detectors o.root o.foundation o.ignoredDirs) := by
  rw [signatures, onDemand]
  cases o.withSignatures with
  | true => exact Logged.outcome_bind_of_ok rfl _
  | false => rfl

theorem onDemand_found {asked : Bool} {check : Logged Failure (List Finding)} {fs : List Finding}
    (h : onDemand asked check = .ok fs) : fs = if asked then resultOr [] check else [] := by
  cases asked with
  | true => exact (resultOr_of_ok h).symm
  | false =>
    cases h
    rfl

/-- Where fewer checks are asked for, none fails that did not fail, and none finds what it did not find. -/
theorem onDemand_fewer {asked more : Bool} {check : Logged Failure (List Finding)} {fs : List Finding}
    (fewer : asked = true → more = true) (h : onDemand more check = .ok fs) :
    ∃ gs, onDemand asked check = .ok gs ∧ gs.Sublist fs := by
  cases asked with
  | true =>
    rw [fewer rfl] at h
    exact ⟨fs, h, .refl fs⟩
  | false => exact ⟨[], rfl, List.nil_sublist fs⟩

theorem run_of_ok {languages : List (Language × Nat)} {m : Reconciliation} {api functions : List Finding}
    (counted : Code.languages t detectors o.root o.ignoredDirs = .ok languages)
    (compared : (Check.modules t o.root o.foundation o.ignoredDirs o.useDescriptors).outcome = .ok m)
    (checked : (contracts t detectors o).outcome = .ok api) (searched : (signatures t detectors o).outcome = .ok functions) :
    (run t detectors o).outcome = .ok (report languages m api functions) := by
  rw [run, Logged.outcome_bind_of_ok rfl, Logged.outcome_bind_of_ok (by exact counted),
    Logged.outcome_bind_of_ok compared, Logged.outcome_bind_of_ok checked, Logged.outcome_bind_of_ok searched]
  rfl

theorem report_extends (languages : List (Language × Nat)) (m : Reconciliation) {api functions api' functions' : List Finding}
    (fewer : api'.Sublist api) (less : functions'.Sublist functions) :
    (report languages m api functions).Extends (report languages m api' functions') := by
  have findings : (m.findings ++ api' ++ functions').Sublist (m.findings ++ api ++ functions) :=
    ((List.Sublist.refl m.findings).append fewer).append less
  refine ⟨findings, rfl, rfl, rfl, rfl, rfl, ?_⟩
  simp only [report, beq_iff_eq]
  have errors := findings.countP_le (p := fun f : Finding => f.severity == .error)
  omega

theorem run_within (within : o.Within p) {r : Report} (returned : (run t detectors p).outcome = .ok r) :
    ∃ q, (run t detectors o).outcome = .ok q ∧ r.Extends q := by
  obtain ⟨languages, m, api, functions, counted, compared, checked, searched, rfl⟩ := ok_of_run returned
  rw [contracts_outcome] at checked
  rw [signatures_outcome] at searched
  obtain ⟨api', checked', fewer⟩ := onDemand_fewer
    (fun asked => Options.withContracts_iff.2 (within.contracts (Options.withContracts_iff.1 asked))) checked
  obtain ⟨functions', searched', less⟩ := onDemand_fewer
    (fun asked => Options.withSignatures_iff.2 (within.signatures (Options.withSignatures_iff.1 asked))) searched
  rw [← within.root, ← within.ignoredDirs] at counted
  rw [← within.root, ← within.foundation, ← within.ignoredDirs, ← within.useDescriptors] at compared
  rw [← within.root, ← within.blueprintsPath, ← within.foundation, ← within.ignoredDirs, ← contracts_outcome] at checked'
  rw [← within.root, ← within.foundation, ← within.ignoredDirs, ← signatures_outcome] at searched'
  exact ⟨_, run_of_ok counted compared checked' searched', report_extends languages m fewer less⟩

/-- The findings of an inspection are those on the modules, those on the contracts if they are asked for, and those on
the signatures if they are asked for. What each stage finds depends on the project only, so to ask for fewer stages takes
findings away and nothing else, and depth 3 is depth 1 with both flags. -/
theorem stages_only_add (t : Tree) (detectors : List Language) :
    (∃ modules api functions : Path → Path → Option Path → List String → Bool → List Finding,
      ∀ o r, (run t detectors o).outcome = .ok r →
        r.findings = modules o.root o.foundation o.blueprints o.ignoredDirs o.useDescriptors ++
          (if o.checkApi = true ∨ 2 ≤ o.depth then
            api o.root o.foundation o.blueprints o.ignoredDirs o.useDescriptors else []) ++
          (if o.checkSignatures = true ∨ 3 ≤ o.depth then
            functions o.root o.foundation o.blueprints o.ignoredDirs o.useDescriptors else [])) ∧
    (∀ o p r, Options.Within o p → (run t detectors p).outcome = .ok r →
      ∃ q, (run t detectors o).outcome = .ok q ∧ r.Extends q) ∧
    ∀ o : Options, run t detectors { o with depth := 3 } =
      run t detectors { o with depth := 1, checkApi := true, checkSignatures := true } := by
  refine ⟨⟨
    fun root foundation _ ignored useDescriptors =>
      (resultOr {} (Check.modules t root foundation ignored useDescriptors)).findings,
    fun root foundation blueprints ignored _ => resultOr [] (Check.contracts t detectors root
      (blueprints.getD ((root.child defaultSpecDir).child "blueprints")) foundation ignored),
    fun root foundation _ ignored _ => resultOr [] (Check.expectations t detectors root foundation ignored), ?_⟩, ?_, ?_⟩
  · intro o r returned
    obtain ⟨languages, m, api, functions, -, compared, checked, searched, rfl⟩ := ok_of_run returned
    rw [contracts_outcome] at checked
    rw [signatures_outcome] at searched
    dsimp only
    rw [resultOr_of_ok compared, report, onDemand_found checked, onDemand_found searched]
    simp only [Options.withContracts_iff, Options.withSignatures_iff]
    rfl
  · exact fun o p r within returned => run_within within returned
  · intro o
    simp [run, contracts, signatures, Options.withContracts, Options.withSignatures, Options.blueprintsPath]

theorem smallOptions_within : Options.Within { smallOptions with depth := 1 } smallOptions := by
  refine ⟨rfl, rfl, rfl, rfl, rfl, ?_, ?_⟩ <;> decide

theorem stages_only_add_small : ∃ r, Options.Within { smallOptions with depth := 1 } smallOptions ∧
    (run smallProject [.go] smallOptions).outcome = .ok r ∧ r.success = false ∧
    ∃ q, (run smallProject [.go] { smallOptions with depth := 1 }).outcome = .ok q ∧ r.Extends q := by
  have evaluated : (run smallProject [.go] smallOptions).outcome.toOption.map (·.success) = some false := by cbv
  obtain ⟨r, value, drifted⟩ := Option.map_eq_some_iff.1 evaluated
  have returned : (run smallProject [.go] smallOptions).outcome = .ok r := ok_of_toOption value
  exact ⟨r, smallOptions_within, returned, drifted,
    (stages_only_add smallProject [.go]).2.1 _ _ r smallOptions_within returned⟩

end Inspection

end Drift
