import Drift.Check.Endpoints
import Drift.Files.NamePattern
import Drift.Recognizer.Search
import Drift.Signature

namespace Drift

def qualifiers : Recognizer Unit := do
  Recognizer.wordEdge
  let qualifier : Recognizer Unit := do
    let _ ← Recognizer.run1 Text.isWord
    let _ ← Recognizer.char (· == '.')
  qualifier
  Recognizer.repeated qualifier
  Recognizer.ahead Text.isWord

def plainType (t : List Char) : List Char := qualifiers.replace (fun _ => []) (Text.trim t)

def typeKey (t : String) : List Char := Text.dropHead ['*'] (Text.lower (plainType t.toList))

def sameType (a b : String) : Bool := typeKey a == typeKey b

theorem sameType_refl (a : String) : sameType a a = true := by simp [sameType]

def Expectation.text (e : Expectation) : String :=
  let head := match e.visibility with
    | some v => v.name ++ " " ++ e.name
    | none => e.name
  let parameter (p : Signature.Parameter) : String := if p.name.isEmpty then p.type else p.name ++ " " ++ p.type
  let results := if e.results.isEmpty then "" else " -> (" ++ ", ".intercalate (e.results.map (·.type)) ++ ")"
  head ++ "(" ++ ", ".intercalate (e.parameters.map parameter) ++ ")" ++ results

namespace Check

structure Difference where
  message : String
  severity : Severity
  remedy : String

def parameterDifferences (fn : String) (i : Nat) (want got : Signature.Parameter) : List Difference :=
  (if want.name ≠ "" ∧ want.name ≠ got.name then
    [{ message := s!"Function '{fn}' parameter {Text.natText i}: name '{got.name}' doesn't match expected '{want.name}'"
       severity := .info
       remedy := s!"Consider renaming parameter to '{want.name}' for consistency" }]
  else []) ++
  (if want.type ≠ "" ∧ sameType want.type got.type = false then
    [{ message := s!"Function '{fn}' parameter '{got.name}': type '{got.type}' doesn't match expected '{want.type}'"
       severity := .warning
       remedy := s!"Update parameter type to '{want.type}'" }]
  else [])

def resultDifferences (fn : String) (i : Nat) (want got : Signature.Result) : List Difference :=
  if want.type ≠ "" ∧ sameType want.type got.type = false then
    [{ message := s!"Function '{fn}' return type {Text.natText i}: '{got.type}' doesn't match expected '{want.type}'"
       severity := .warning
       remedy := s!"Update return type to '{want.type}'" }]
  else []

def eachPair {α β γ : Type} (f : Nat → α → β → List γ) : Nat → List α → List β → List γ
  | i, a :: as, b :: bs => f i a b ++ eachPair f (i + 1) as bs
  | _, _, _ => []

def parametersDifferences (want : Expectation) (got : Signature) : List Difference :=
  if want.parameters.length = got.parameters.length then
    eachPair (parameterDifferences want.name) 1 want.parameters got.parameters
  else
    [{ message := s!"Function '{want.name}' has {Text.natText got.parameters.length} parameters but expected {Text.natText want.parameters.length}"
       severity := .warning
       remedy := s!"Update function signature to match spec: {want.text}" }]

def resultsDifferences (want : Expectation) (got : Signature) : List Difference :=
  if want.results.length = got.results.length then
    eachPair (resultDifferences want.name) 1 want.results got.results
  else
    [{ message := s!"Function '{want.name}' has {Text.natText got.results.length} return values but expected {Text.natText want.results.length}"
       severity := .warning
       remedy := s!"Update return types to match spec: {want.text}" }]

def visibilityDifferences (want : Expectation) (got : Signature) : List Difference :=
  match want.visibility with
  | none => []
  | some v =>
    if v = got.visibility then []
    else
      [{ message := s!"Function '{want.name}' has visibility '{got.visibility.name}' but expected '{v.name}'"
         severity := .info
         remedy := s!"Change visibility to '{v.name}' if intended for external use" }]

def differences (want : Expectation) (got : Signature) : List Difference :=
  parametersDifferences want got ++ resultsDifferences want got ++ visibilityDifferences want got

def mismatch (moduleName : String) (got : Signature) (d : Difference) : Finding where
  kind := .signatureMismatch
  subject := moduleName
  message := d.message ++ " (in " ++ location got.file got.line ++ ")"
  severity := d.severity
  remedy := d.remedy

def signature (moduleName : String) (want : Expectation) (got : Signature) : List Finding :=
  (differences want got).map (mismatch moduleName got)

def inLanguage (want : Expectation) (got : Signature) : Bool :=
  want.language.isEmpty ||
    match Language.ofName? want.language with
    | some l => Language.ofPath? got.file == some l
    | none => false

def inFiles (want : Expectation) (got : Signature) : Bool :=
  want.filePattern.isEmpty || Files.matchesName want.filePattern.toList (Files.baseName got.file).toList

def restriction (want : Expectation) : String :=
  let language := if want.language.isEmpty then [] else [s!"{want.language} files"]
  let pattern := if want.filePattern.isEmpty then [] else [s!"files matching '{want.filePattern}'"]
  " and ".intercalate (language ++ pattern)

def missingFunction (moduleName : String) (want : Expectation) (searched : String) : Finding where
  kind := .missingFunction
  subject := moduleName
  message := s!"Expected function '{want.name}' not found in {searched}"
  severity := .error
  remedy :=
    let files := if want.language.isEmpty then "source" else want.language
    s!"Implement function '{want.name}' in {files} files or update module descriptor"

/-- One expected function against all that were found: nothing if some candidate fits, else how the first
candidate differs, or that there is none. -/
def function (moduleName : String) (want : Expectation) (found : List Signature) : List Finding :=
  let named := found.filter (·.name == want.name)
  if named.isEmpty then [missingFunction moduleName want "code"]
  else
    let candidates := named.filter fun f => inLanguage want f && inFiles want f
    match candidates.map (signature moduleName want) with
    | [] => [missingFunction moduleName want (restriction want)]
    | d :: ds => if (d :: ds).any (·.isEmpty) then [] else d

end Check

end Drift
