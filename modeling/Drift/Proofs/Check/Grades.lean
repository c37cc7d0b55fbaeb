import Drift.Check.Contracts
import Drift.Check.Expectations
import Drift.Check.Modules
import Drift.Proofs.Outcome
import Drift.Proofs.Text.Codes

namespace Drift

def Finding.Kind.isFatal : Finding.Kind → Bool
  | missingEndpoint | missingFunction => true
  | _ => false

def Discloses (severity : Severity) (message remedy : String) : Prop :=
  severity = .info → Text.isBroken remedy = true → Text.isBroken message = true

structure Finding.Graded (kinds : List Finding.Kind) (f : Finding) : Prop where
  mem : f.kind ∈ kinds
  severity : f.severity = .error ↔ f.kind.isFatal = true
  discloses : Discloses f.severity f.message f.remedy

theorem Finding.Graded.of_kind {kinds : List Finding.Kind} {f : Finding} (k : Finding.Kind) (s : Severity)
    (kind : f.kind = k) (severity : f.severity = s) (mem : k ∈ kinds) (grade : s = .error ↔ k.isFatal = true)
    (discloses : Discloses s f.message f.remedy) : f.Graded kinds := by
  subst kind severity
  exact ⟨mem, grade, discloses⟩

theorem Finding.countP_other_kind {fs : List Finding} {k other : Finding.Kind} (kind : ∀ f ∈ fs, f.kind = k)
    (apart : k ≠ other) : fs.countP (·.kind == other) = 0 := by
  rw [List.countP_eq_zero]
  intro f mem
  rw [kind f mem, beq_iff_eq]
  exact apart

namespace Check

open Files

def moduleKinds : List Finding.Kind := [.missingModule, .extraCode, .missingFile]

def contractKinds : List Finding.Kind := [.missingEndpoint, .undocumentedEndpoint]

def functionKinds : List Finding.Kind := [.missingFunction, .signatureMismatch]

variable {t : Tree} {moduleName : String} {path : Path} {fs : List Finding}

theorem missingModule_graded : (missingModule moduleName).Graded moduleKinds :=
  .of_kind .missingModule .warning rfl rfl (by decide) (by decide) nofun

theorem extraCode_graded : (extraCode moduleName).Graded moduleKinds := by
  have texts : Text.isBroken "Create foundation spec '" = false ∧
    Text.isBroken ".md' or remove the directory" = false := by decide
  refine .of_kind .extraCode .info rfl rfl (by decide) (by decide) fun _ broken => ?_
  have named : Text.isBroken moduleName = true := by simpa [extraCode, toString, texts] using broken
  simp [extraCode, toString, named]

theorem missingMatch_discloses (pattern : String) : Discloses .info (missingMatch moduleName pattern).message
    (missingMatch moduleName pattern).remedy := by
  have texts : Text.isBroken "Add files matching pattern '" = false ∧
    Text.isBroken "' or update module descriptor" = false := by decide
  intro _ broken
  have named : Text.isBroken pattern = true := by simpa [missingMatch, toString, texts] using broken
  simp [missingMatch, toString, named]

theorem moduleFiles_lacks {d : Descriptor} (h : moduleFiles t moduleName d path = .ok fs) :
    ∀ f ∈ fs, f.kind = .missingFile ∧ f.subject = moduleName ∧ f.severity ≠ .error ∧
      Discloses f.severity f.message f.remedy := by
  obtain ⟨files, -, h⟩ := ok_of_bind (ok_of_mapError h)
  obtain ⟨dirs, -, h⟩ := ok_of_bind h
  obtain ⟨patterns, -, h⟩ := ok_of_bind h
  cases h
  intro f mem
  rw [List.mem_append, List.mem_append, List.mem_map, List.mem_map, List.mem_map] at mem
  rcases mem with (⟨x, -, rfl⟩ | ⟨x, -, rfl⟩) | ⟨x, -, rfl⟩
  · exact ⟨rfl, rfl, nofun, nofun⟩
  · exact ⟨rfl, rfl, nofun, nofun⟩
  · exact ⟨rfl, rfl, nofun, missingMatch_discloses x⟩

theorem describedFiles_lacks {foundation : Path} (h : describedFiles t foundation moduleName path = .ok fs) :
    ∀ f ∈ fs, f.kind = .missingFile ∧ f.subject = moduleName ∧ f.severity ≠ .error ∧
      Discloses f.severity f.message f.remedy := by
  obtain ⟨descriptor, -, h⟩ := ok_of_bind h
  cases descriptor with
  | none =>
    cases h
    intro f mem
    cases mem
  | some d => exact moduleFiles_lacks h

/-- One finding where the module is not there, and otherwise what it lacks. -/
theorem declaredModule_findings {foundation : Path} {useDescriptors : Bool} {present : List (String × Path)}
    (h : declaredModule t foundation useDescriptors present moduleName = .ok fs) :
    present.lookup moduleName = none ∧ fs = [missingModule moduleName] ∨
      present.lookup moduleName ≠ none ∧ ∀ f ∈ fs, f.kind = .missingFile ∧ f.severity ≠ .error ∧
        Discloses f.severity f.message f.remedy := by
  rw [declaredModule] at h
  cases found : present.lookup moduleName with
  | none =>
    rw [found] at h
    cases h
    exact .inl ⟨rfl, rfl⟩
  | some path =>
    simp only [found] at h
    refine .inr ⟨by simp, ?_⟩
    cases useDescriptors with
    | false =>
      cases h
      intro f mem
      cases mem
    | true =>
      intro f mem
      obtain ⟨kind, -, severity⟩ := describedFiles_lacks h f mem
      exact ⟨kind, severity⟩

/-- The findings on the declared modules: all graded, none about extra code, and one for each module that is not
there. -/
theorem declaredModules_findings {foundation : Path} {useDescriptors : Bool} {present : List (String × Path)}
    {declared : List String} {found : List (List Finding)}
    (h : declared.mapM (declaredModule t foundation useDescriptors present) = .ok found) :
    (∀ f ∈ found.flatten, f.Graded moduleKinds) ∧
      found.flatten.countP (·.kind == .missingModule) = (declared.filter fun m => (present.lookup m).isNone).length ∧
      found.flatten.countP (·.kind == .extraCode) = 0 := by
  induction declared generalizing found with
  | nil =>
    cases h
    simp
  | cons m declared ih =>
    obtain ⟨here, rest, first, later, rfl⟩ := mapM_cons_ok h
    obtain ⟨graded, missing, extra⟩ := ih later
    rw [List.flatten_cons, List.countP_append, List.countP_append, missing, extra, List.filter_cons]
    -- a module adds to the count of missing ones or lacks files, never both
    rcases declaredModule_findings first with ⟨absent, rfl⟩ | ⟨present, lacks⟩
    · refine ⟨?_, ?_, ?_⟩
      · simpa using ⟨missingModule_graded, by simpa using graded⟩
      · have one : [missingModule m].countP (·.kind == .missingModule) = 1 := rfl
        have counted : (present.lookup m).isNone = true := by rw [absent]; rfl
        rw [one, if_pos counted, List.length_cons]
        omega
      · simp [missingModule]
    · have kind : ∀ f ∈ here, f.kind = .missingFile := fun f mem => (lacks f mem).1
      refine ⟨?_, ?_, ?_⟩
      · intro f mem
        rcases List.mem_append.1 mem with mem | mem
        · obtain ⟨kind, severity, discloses⟩ := lacks f mem
          exact .of_kind .missingFile f.severity kind rfl (by decide) (by simp [severity]; decide) discloses
        · exact graded f mem
      · rw [Finding.countP_other_kind kind (by decide), if_neg (by simpa using present), Nat.zero_add]
      · rw [Finding.countP_other_kind kind (by decide)]

theorem modules_counts {root foundation : Path} {ignored : List String} {useDescriptors : Bool} {r : Reconciliation}
    (h : (modules t root foundation ignored useDescriptors).outcome = .ok r) :
    (∀ f ∈ r.findings, f.Graded moduleKinds) ∧ r.total = r.matching + r.missing ∧
      r.missing = r.findings.countP (·.kind == .missingModule) ∧
      r.extra = r.findings.countP (·.kind == .extraCode) := by
  obtain ⟨declared, -, h⟩ := Logged.ok_of_bind h
  obtain ⟨present, -, h⟩ := Logged.ok_of_bind h
  obtain ⟨found, read, h⟩ := Logged.ok_of_bind h
  obtain ⟨-, -, h⟩ := Logged.ok_of_bind h
  cases h
  obtain ⟨graded, missing, noExtra⟩ := declaredModules_findings read
  refine ⟨?_, ?_, ?_, ?_⟩
  · intro f mem
    rcases List.mem_append.1 mem with mem | mem
    · exact graded f mem
    · obtain ⟨m, -, rfl⟩ := List.mem_map.1 mem
      exact extraCode_graded
  · simpa using declared.length_eq_length_filter_add fun m => (present.lookup m).isSome
  · rw [List.countP_append, missing]
    simp [List.countP_map, Function.comp_def, extraCode]
  · rw [List.countP_append, noExtra]
    simp [List.countP_map, Function.comp_def, extraCode]

theorem endpoints_graded {documented implemented : List Endpoint} :
    ∀ f ∈ endpoints documented implemented, f.Graded contractKinds := by
  intro f mem
  rcases List.mem_append.1 mem with mem | mem
  · obtain ⟨e, -, rfl⟩ := List.mem_map.1 mem
    exact .of_kind .missingEndpoint .error rfl rfl (by decide) (by decide) nofun
  · obtain ⟨e, -, rfl⟩ := List.mem_map.1 mem
    exact .of_kind .undocumentedEndpoint .warning rfl rfl (by decide) (by decide) nofun

theorem contracts_graded {detectors : List Language} {root blueprints foundation : Path} {ignored : List String}
    (h : (contracts t detectors root blueprints foundation ignored).outcome = .ok fs) :
    ∀ f ∈ fs, f.Graded contractKinds := by
  obtain ⟨documented, -, h⟩ := Logged.ok_of_bind h
  by_cases none : documented.isEmpty = true
  · rw [if_pos none] at h
    obtain ⟨-, -, h⟩ := Logged.ok_of_bind h
    cases h
    intro f mem
    cases mem
  · rw [if_neg none] at h
    obtain ⟨implemented, -, h⟩ := Logged.ok_of_bind h
    cases h
    exact endpoints_graded

variable {want : Expectation} {got : Signature}

theorem mem_eachPair {α β γ : Type} {f : Nat → α → β → List γ} {i : Nat} {as : List α} {bs : List β} {x : γ}
    (mem : x ∈ eachPair f i as bs) : ∃ j a b, x ∈ f j a b := by
  induction as generalizing i bs with
  | nil => simp [eachPair] at mem
  | cons a as ih =>
    cases bs with
    | nil => simp [eachPair] at mem
    | cons b bs =>
      rcases List.mem_append.1 mem with mem | mem
      · exact ⟨i, a, b, mem⟩
      · exact ih mem

theorem eq_of_mem_ite {α : Type} {c : Prop} [Decidable c] {x y : α} (mem : x ∈ if c then [y] else []) : x = y := by
  split at mem
  · exact List.mem_singleton.1 mem
  · cases mem

structure Difference.Mild (d : Difference) : Prop where
  severity : d.severity ≠ .error
  discloses : Discloses d.severity d.message d.remedy

theorem parameterDifferences_mild {fn : String} {i : Nat} {p q : Signature.Parameter} :
    ∀ d ∈ parameterDifferences fn i p q, d.Mild := by
  have texts : Text.isBroken "Consider renaming parameter to '" = false ∧
    Text.isBroken "' for consistency" = false := by decide
  intro d mem
  rcases List.mem_append.1 mem with mem | mem
  · rw [eq_of_mem_ite mem]
    refine ⟨nofun, fun _ broken => ?_⟩
    have named : Text.isBroken p.name = true := by simpa [toString, texts] using broken
    simp [toString, named]
  · rw [eq_of_mem_ite mem]
    exact ⟨nofun, nofun⟩

theorem resultDifferences_mild {fn : String} {i : Nat} {p q : Signature.Result} :
    ∀ d ∈ resultDifferences fn i p q, d.Mild := by
  intro d mem
  rw [eq_of_mem_ite mem]
  exact ⟨nofun, nofun⟩

theorem parametersDifferences_mild : ∀ d ∈ parametersDifferences want got, d.Mild := by
  intro d mem
  rw [parametersDifferences] at mem
  by_cases same : want.parameters.length = got.parameters.length
  · rw [if_pos same] at mem
    obtain ⟨i, p, q, mem⟩ := mem_eachPair mem
    exact parameterDifferences_mild d mem
  · rw [if_neg same] at mem
    rw [List.mem_singleton.1 mem]
    exact ⟨nofun, nofun⟩

theorem resultsDifferences_mild : ∀ d ∈ resultsDifferences want got, d.Mild := by
  intro d mem
  rw [resultsDifferences] at mem
  by_cases same : want.results.length = got.results.length
  · rw [if_pos same] at mem
    obtain ⟨i, p, q, mem⟩ := mem_eachPair mem
    exact resultDifferences_mild d mem
  · rw [if_neg same] at mem
    rw [List.mem_singleton.1 mem]
    exact ⟨nofun, nofun⟩

theorem visibilityDifferences_mild : ∀ d ∈ visibilityDifferences want got, d.Mild := by
  intro d mem
  rw [visibilityDifferences] at mem
  cases expected : want.visibility with
  | none =>
    rw [expected] at mem
    cases mem
  | some v =>
    simp only [expected] at mem
    by_cases same : v = got.visibility
    · rw [if_pos same] at mem
      cases mem
    · rw [if_neg same] at mem
      have whole : Text.isBroken s!"Change visibility to '{v.name}' if intended for external use" = false := by
        cases v <;> decide
      rw [List.mem_singleton.1 mem]
      exact ⟨nofun, fun _ broken => absurd broken (by simp [whole])⟩

theorem differences_mild : ∀ d ∈ differences want got, d.Mild := by
  intro d mem
  rcases List.mem_append.1 mem with mem | mem
  · rcases List.mem_append.1 mem with mem | mem
    · exact parametersDifferences_mild d mem
    · exact resultsDifferences_mild d mem
  · exact visibilityDifferences_mild d mem

theorem signature_graded : ∀ f ∈ signature moduleName want got, f.Graded functionKinds := by
  intro f mem
  obtain ⟨d, inside, rfl⟩ := List.mem_map.1 mem
  obtain ⟨severity, discloses⟩ := differences_mild d inside
  refine .of_kind .signatureMismatch d.severity rfl rfl (by decide) (by simp [severity]; decide) fun info broken => ?_
  simp [mismatch, discloses info broken]

theorem function_graded {found : List Signature} : ∀ f ∈ function moduleName want found, f.Graded functionKinds := by
  have missing : ∀ searched, (missingFunction moduleName want searched).Graded functionKinds := fun searched =>
    .of_kind .missingFunction .error rfl rfl (by decide) (by decide) nofun
  intro f mem
  simp only [function] at mem
  split at mem
  · cases List.mem_singleton.1 mem
    exact missing _
  · split at mem
    · cases List.mem_singleton.1 mem
      exact missing _
    · rename_i d ds compared
      split at mem
      · cases mem
      · have candidate : d ∈ d :: ds := by simp
        rw [← compared] at candidate
        obtain ⟨got, -, rfl⟩ := List.mem_map.1 candidate
        exact signature_graded f mem

theorem expectations_graded {detectors : List Language} {root foundation : Path} {ignored : List String}
    (h : (expectations t detectors root foundation ignored).outcome = .ok fs) :
    ∀ f ∈ fs, f.Graded functionKinds := by
  obtain ⟨expected, -, h⟩ := Logged.ok_of_bind h
  by_cases none : expected.isEmpty = true
  · rw [if_pos none] at h
    obtain ⟨-, -, h⟩ := Logged.ok_of_bind h
    cases h
    intro f mem
    cases mem
  · rw [if_neg none] at h
    obtain ⟨found, -, h⟩ := Logged.ok_of_bind h
    cases h
    intro f mem
    obtain ⟨⟨m, e⟩, -, mem⟩ := List.mem_flatMap.1 mem
    exact function_graded f mem

end Check

end Drift
