import Drift.Proofs.Check.Grades
import Mathlib.Data.List.Forall2

namespace Drift

structure Signature.Parameter.Fits (want got : Signature.Parameter) : Prop where
  name : want.name ≠ "" → want.name = got.name
  type : want.type ≠ "" → sameType want.type got.type = true

def Signature.Result.Fits (want got : Signature.Result) : Prop :=
  want.type ≠ "" → sameType want.type got.type = true

namespace Expectation

/-- The signature is one that may meet the expectation: it has the name, and it is found in the language and
in the files that are asked for. -/
structure Concerns (want : Expectation) (got : Signature) : Prop where
  name : got.name = want.name
  language : want.language = "" ∨
    ∃ l, Language.ofName? want.language = some l ∧ Language.ofPath? got.file = some l
  file : want.filePattern = "" ∨
    Files.matchesName want.filePattern.toList (Files.baseName got.file).toList = true

structure Conforms (want : Expectation) (got : Signature) : Prop where
  parameters : List.Forall₂ Signature.Parameter.Fits want.parameters got.parameters
  results : List.Forall₂ Signature.Result.Fits want.results got.results
  visibility : ∀ v ∈ want.visibility, v = got.visibility

end Expectation

namespace Check

variable {want : Expectation} {got : Signature} (moduleName : String) {found : List Signature}

theorem eachPair_eq_nil_iff {α β γ : Type} {f : Nat → α → β → List γ} {R : α → β → Prop}
    (each : ∀ i a b, f i a b = [] ↔ R a b) {as : List α} {bs : List β} (same : as.length = bs.length) (i : Nat) :
    eachPair f i as bs = [] ↔ List.Forall₂ R as bs := by
  induction as generalizing bs i with
  | nil =>
    cases bs with
    | nil => simp [eachPair]
    | cons b bs => simp at same
  | cons a as ih =>
    cases bs with
    | nil => simp at same
    | cons b bs =>
      rw [eachPair, List.append_eq_nil_iff, each, ih (by simpa using same), List.forall₂_cons]

theorem parameterDifferences_eq_nil_iff (fn : String) (i : Nat) (p q : Signature.Parameter) :
    parameterDifferences fn i p q = [] ↔ p.Fits q := by
  rw [parameterDifferences, List.append_eq_nil_iff]
  constructor
  · rintro ⟨sameName, sameType⟩
    exact ⟨by simpa using sameName, by simpa using sameType⟩
  · rintro ⟨sameName, sameType⟩
    exact ⟨by simpa using sameName, by simpa using sameType⟩

theorem resultDifferences_eq_nil_iff (fn : String) (i : Nat) (p q : Signature.Result) :
    resultDifferences fn i p q = [] ↔ p.Fits q := by
  simp [resultDifferences, Signature.Result.Fits]

theorem parametersDifferences_eq_nil_iff :
    parametersDifferences want got = [] ↔
      List.Forall₂ Signature.Parameter.Fits want.parameters got.parameters := by
  rw [parametersDifferences]
  by_cases same : want.parameters.length = got.parameters.length
  · rw [if_pos same]
    exact eachPair_eq_nil_iff (parameterDifferences_eq_nil_iff want.name) same 1
  · rw [if_neg same]
    simp only [List.cons_ne_nil, false_iff]
    exact fun fits => same fits.length_eq

theorem resultsDifferences_eq_nil_iff :
    resultsDifferences want got = [] ↔ List.Forall₂ Signature.Result.Fits want.results got.results := by
  rw [resultsDifferences]
  by_cases same : want.results.length = got.results.length
  · rw [if_pos same]
    exact eachPair_eq_nil_iff (resultDifferences_eq_nil_iff want.name) same 1
  · rw [if_neg same]
    simp only [List.cons_ne_nil, false_iff]
    exact fun fits => same fits.length_eq

theorem visibilityDifferences_eq_nil_iff :
    visibilityDifferences want got = [] ↔ ∀ v ∈ want.visibility, v = got.visibility := by
  rw [visibilityDifferences]
  cases want.visibility with
  | none => simp
  | some v => by_cases same : v = got.visibility <;> simp [same]

theorem signature_eq_nil_iff : signature moduleName want got = [] ↔ want.Conforms got := by
  rw [signature, List.map_eq_nil_iff, differences, List.append_eq_nil_iff, List.append_eq_nil_iff,
    parametersDifferences_eq_nil_iff, resultsDifferences_eq_nil_iff, visibilityDifferences_eq_nil_iff]
  exact ⟨fun ⟨⟨ps, rs⟩, v⟩ => ⟨ps, rs, v⟩, fun ⟨ps, rs, v⟩ => ⟨⟨ps, rs⟩, v⟩⟩

instance : Decidable (want.Conforms got) := decidable_of_iff _ (signature_eq_nil_iff "")

theorem signature_severity : ∀ f ∈ signature moduleName want got, f.severity ≠ .error := by
  intro f mem
  obtain ⟨d, inside, rfl⟩ := List.mem_map.1 mem
  exact (differences_mild d inside).severity

theorem inLanguage_iff :
    inLanguage want got = true ↔
      want.language = "" ∨ ∃ l, Language.ofName? want.language = some l ∧ Language.ofPath? got.file = some l := by
  rw [inLanguage, Bool.or_eq_true, String.isEmpty_iff]
  cases Language.ofName? want.language <;> simp

theorem inFiles_iff :
    inFiles want got = true ↔
      want.filePattern = "" ∨ Files.matchesName want.filePattern.toList (Files.baseName got.file).toList = true := by
  rw [inFiles, Bool.or_eq_true, String.isEmpty_iff]

def candidates (want : Expectation) (found : List Signature) : List Signature :=
  (found.filter (·.name == want.name)).filter fun f => inLanguage want f && inFiles want f

theorem mem_candidates : got ∈ candidates want found ↔ got ∈ found ∧ want.Concerns got := by
  rw [candidates, List.mem_filter, List.mem_filter, beq_iff_eq, Bool.and_eq_true, inLanguage_iff, inFiles_iff]
  exact ⟨fun ⟨⟨mem, n⟩, l, f⟩ => ⟨mem, n, l, f⟩, fun ⟨mem, n, l, f⟩ => ⟨⟨mem, n⟩, l, f⟩⟩

theorem candidates_eq_nil_iff : candidates want found = [] ↔ ∀ f ∈ found, ¬ want.Concerns f := by
  rw [List.eq_nil_iff_forall_not_mem]
  exact forall_congr' fun f => by rw [mem_candidates, not_and]

theorem candidates_append (before after : List Signature) :
    candidates want (before ++ after) = candidates want before ++ candidates want after := by
  simp [candidates]

theorem candidates_cons (concerns : want.Concerns got) (after : List Signature) :
    candidates want (got :: after) = got :: candidates want after := by
  have asked : (inLanguage want got && inFiles want got) = true := by
    rw [Bool.and_eq_true, inLanguage_iff, inFiles_iff]
    exact ⟨concerns.language, concerns.file⟩
  have named : (got.name == want.name) = true := beq_iff_eq.2 concerns.name
  simp only [candidates, List.filter_cons, named, asked, if_true]

theorem function_of_none (none : candidates want found = []) :
    ∃ searched, function moduleName want found = [missingFunction moduleName want searched] := by
  rw [function]
  by_cases unnamed : (found.filter (·.name == want.name)).isEmpty = true
  · exact ⟨"code", if_pos unnamed⟩
  · refine ⟨restriction want, ?_⟩
    rw [candidates] at none
    simp only [if_neg unnamed, none, List.map_nil]

/-- Of the signatures in question one has to conform; else the first of them tells the differences. -/
theorem function_of_cons {first : Signature} {rest : List Signature} (listed : candidates want found = first :: rest) :
    function moduleName want found =
      if ∃ f ∈ first :: rest, want.Conforms f then [] else signature moduleName want first := by
  have named : (found.filter (·.name == want.name)).isEmpty = false := by
    rw [List.isEmpty_eq_false_iff]
    intro empty
    rw [candidates, empty] at listed
    cases listed
  have conforming : ((first :: rest).map (signature moduleName want)).any (·.isEmpty) = true ↔
      ∃ f ∈ first :: rest, want.Conforms f := by
    rw [List.any_map, List.any_eq_true]
    exact exists_congr fun f => and_congr_right fun _ => by
      rw [Function.comp_apply, List.isEmpty_iff, signature_eq_nil_iff]
  rw [candidates] at listed
  simp only [function, named, Bool.false_eq_true, if_false, listed, List.map_cons]
  rw [List.map_cons] at conforming
  simp only [conforming]

theorem function_eq_nil_iff :
    function moduleName want found = [] ↔ ∃ f ∈ found, want.Concerns f ∧ want.Conforms f := by
  have among : (∃ f ∈ found, want.Concerns f ∧ want.Conforms f) ↔ ∃ f ∈ candidates want found, want.Conforms f :=
    exists_congr fun f => by rw [mem_candidates, and_assoc]
  rw [among]
  cases listed : candidates want found with
  | nil =>
    obtain ⟨searched, missing⟩ := function_of_none moduleName listed
    simp [missing]
  | cons first rest =>
    rw [function_of_cons moduleName listed]
    by_cases met : ∃ f ∈ first :: rest, want.Conforms f
    · rw [if_pos met]
      exact iff_of_true rfl met
    · rw [if_neg met, signature_eq_nil_iff]
      exact iff_of_false (fun conforms => met ⟨first, by simp, conforms⟩) met

theorem function_missing_iff :
    (∃ f, function moduleName want found = [f] ∧ f.kind = .missingFunction ∧ f.severity = .error) ↔
      ∀ f ∈ found, ¬ want.Concerns f := by
  rw [← candidates_eq_nil_iff]
  constructor
  · rintro ⟨f, only, -, severity⟩
    cases listed : candidates want found with
    | nil => rfl
    | cons first rest =>
      rw [function_of_cons moduleName listed] at only
      split at only
      · cases only
      · have mem : f ∈ signature moduleName want first := by simp [only]
        exact absurd severity (signature_severity moduleName f mem)
  · intro none
    obtain ⟨searched, missing⟩ := function_of_none moduleName none
    exact ⟨_, missing, rfl, rfl⟩

/-- The check of an expected function finds nothing if some signature in question conforms, and exactly one
error if none is in question. Otherwise it finds the differences of the first that is in question, of which
there is at least one and none is an error. So the order of the signatures does not decide whether anything is
found. -/
theorem function_verdict (moduleName : String) (want : Expectation) (found : List Signature) :
    (function moduleName want found = [] ↔ ∃ f ∈ found, want.Concerns f ∧ want.Conforms f) ∧
    ((∃ f, function moduleName want found = [f] ∧ f.kind = .missingFunction ∧ f.severity = .error) ↔
      ∀ f ∈ found, ¬ want.Concerns f) ∧
    (∀ before first after, found = before ++ first :: after → (∀ f ∈ before, ¬ want.Concerns f) →
      want.Concerns first → (∀ f ∈ found, want.Concerns f → ¬ want.Conforms f) →
      function moduleName want found = signature moduleName want first ∧
        signature moduleName want first ≠ [] ∧ ∀ f ∈ signature moduleName want first, f.severity ≠ .error) ∧
    ∀ shuffled, found.Perm shuffled → (function moduleName want found = [] ↔ function moduleName want shuffled = []) := by
  refine ⟨function_eq_nil_iff moduleName, function_missing_iff moduleName, ?_, ?_⟩
  · rintro before first after rfl earlier concerns unmet
    have listed : candidates want (before ++ first :: after) = first :: candidates want after := by
      rw [candidates_append, candidates_eq_nil_iff.2 earlier, candidates_cons concerns, List.nil_append]
    have none : ¬ ∃ f ∈ first :: candidates want after, want.Conforms f := by
      rintro ⟨f, mem, conforms⟩
      rw [← listed, mem_candidates] at mem
      exact unmet f mem.1 mem.2 conforms
    refine ⟨by rw [function_of_cons moduleName listed, if_neg none], ?_, signature_severity moduleName⟩
    rw [ne_eq, signature_eq_nil_iff]
    exact unmet first (by simp) concerns
  · intro shuffled perm
    rw [function_eq_nil_iff, function_eq_nil_iff]
    exact exists_congr fun f => by rw [perm.mem_iff]

example : (function "m" { name := "f", language := "py", parameters := [⟨"x", "int"⟩] }
    [{ name := "f", file := "a.py" }, { name := "f", file := "b.py", parameters := [⟨"y", "int"⟩] }]).map (·.severity) =
      [.warning] := by decide +kernel

end Check

end Drift
