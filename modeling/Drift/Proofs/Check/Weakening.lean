import Drift.Proofs.Check.Conformance
import Mathlib.Data.List.Basic

namespace Drift

inductive Expectation.Item where
  | parameterName (i : Nat)
  | parameterType (i : Nat)
  | resultType (i : Nat)
  | visibility
  deriving DecidableEq

namespace Expectation

def parameterItems (n : Nat) : List Item := (List.range n).flatMap fun i => [.parameterName i, .parameterType i]

def resultItems (n : Nat) : List Item := (List.range n).map .resultType

def items (e : Expectation) : List Item :=
  parameterItems e.parameters.length ++ resultItems e.results.length ++ [.visibility]

def without (e : Expectation) (dropped : Item → Bool) : Expectation :=
  { e with
    parameters := e.parameters.mapIdx fun i p =>
      { name := if dropped (.parameterName i) then "" else p.name
        type := if dropped (.parameterType i) then "" else p.type }
    results := e.results.mapIdx fun i r => { r with type := if dropped (.resultType i) then "" else r.type }
    visibility := if dropped .visibility then none else e.visibility }

end Expectation

def Signature.expectation (got : Signature) (language filePattern : String) : Expectation where
  name := got.name
  language := language
  filePattern := filePattern
  parameters := got.parameters
  results := got.results
  visibility := some got.visibility

namespace Check

open Expectation

variable {want : Expectation} {got : Signature} {dropped : Item → Bool} {i : Nat}

def nameDifference (fn : String) (place : Nat) (name : String) (q : Signature.Parameter) : Option Difference :=
  if name ≠ "" ∧ name ≠ q.name then
    some {
      message := s!"Function '{fn}' parameter {Text.natText place}: name '{q.name}' doesn't match expected '{name}'"
      severity := .info
      remedy := s!"Consider renaming parameter to '{name}' for consistency" }
  else none

def typeDifference (fn type : String) (q : Signature.Parameter) : Option Difference :=
  if type ≠ "" ∧ sameType type q.type = false then
    some {
      message := s!"Function '{fn}' parameter '{q.name}': type '{q.type}' doesn't match expected '{type}'"
      severity := .warning
      remedy := s!"Update parameter type to '{type}'" }
  else none

def resultDifference (fn : String) (place : Nat) (type : String) (s : Signature.Result) : Option Difference :=
  if type ≠ "" ∧ sameType type s.type = false then
    some {
      message := s!"Function '{fn}' return type {Text.natText place}: '{s.type}' doesn't match expected '{type}'"
      severity := .warning
      remedy := s!"Update return type to '{type}'" }
  else none

def visibilityDifference (fn : String) (v w : Visibility) : Option Difference :=
  if v ≠ w then
    some {
      message := s!"Function '{fn}' has visibility '{w.name}' but expected '{v.name}'"
      severity := .info
      remedy := s!"Change visibility to '{v.name}' if intended for external use" }
  else none

/-- The difference in one item. Of the expectation it reads that item alone, and the name of the function. -/
def itemDifference (want : Expectation) (got : Signature) : Item → Option Difference
  | .parameterName i => do nameDifference want.name (i + 1) (← want.parameters[i]?).name (← got.parameters[i]?)
  | .parameterType i => do typeDifference want.name (← want.parameters[i]?).type (← got.parameters[i]?)
  | .resultType i => do resultDifference want.name (i + 1) (← want.results[i]?).type (← got.results[i]?)
  | .visibility => do visibilityDifference want.name (← want.visibility) got.visibility

def parameterCount (want : Expectation) (got : Signature) : Difference where
  message := s!"Function '{want.name}' has {Text.natText got.parameters.length} parameters but expected {Text.natText want.parameters.length}"
  severity := .warning
  remedy := s!"Update function signature to match spec: {want.text}"

def resultCount (want : Expectation) (got : Signature) : Difference where
  message := s!"Function '{want.name}' has {Text.natText got.results.length} return values but expected {Text.natText want.results.length}"
  severity := .warning
  remedy := s!"Update return types to match spec: {want.text}"

theorem eachPair_eq_flatMap {α β γ : Type} {f : Nat → α → β → List γ} {g : Nat → List γ} {k : Nat} {as : List α}
    {bs : List β} (same : as.length = bs.length)
    (each : ∀ i a b, as[i]? = some a → bs[i]? = some b → f (i + k) a b = g i) :
    eachPair f k as bs = (List.range as.length).flatMap g := by
  induction as generalizing bs k g with
  | nil => simp [eachPair]
  | cons a as ih =>
    obtain ⟨b, bs, rfl⟩ : ∃ b r, bs = b :: r := List.exists_cons_of_length_eq_add_one same.symm
    have first : f k a b = g 0 := by simpa using each 0 a b rfl rfl
    have rest : eachPair f (k + 1) as bs = (List.range as.length).flatMap fun i => g (i + 1) := by
      refine ih (by simpa using same) ?_
      intro i x y wanted found
      have next := each (i + 1) x y (by simpa using wanted) (by simpa using found)
      rwa [Nat.add_assoc, Nat.add_comm 1 k] at next
    rw [eachPair, first, rest, List.length_cons, List.range_succ_eq_map, List.flatMap_cons, List.flatMap_map]

theorem parameterDifferences_eq (fn : String) (place : Nat) (p q : Signature.Parameter) :
    parameterDifferences fn place p q = (nameDifference fn place p.name q).toList ++ (typeDifference fn p.type q).toList := by
  unfold parameterDifferences nameDifference typeDifference
  congr 1 <;> split <;> rfl

theorem resultDifferences_eq (fn : String) (place : Nat) (r s : Signature.Result) :
    resultDifferences fn place r s = (resultDifference fn place r.type s).toList := by
  unfold resultDifferences resultDifference
  split <;> rfl

theorem parametersDifferences_eq (want : Expectation) (got : Signature) :
    parametersDifferences want got =
      if want.parameters.length = got.parameters.length then
        (parameterItems want.parameters.length).filterMap (itemDifference want got)
      else [parameterCount want got] := by
  unfold parametersDifferences
  by_cases same : want.parameters.length = got.parameters.length
  · rw [if_pos same, if_pos same, parameterItems, List.filterMap_flatMap]
    apply eachPair_eq_flatMap same
    intro i p q wanted found
    have name : itemDifference want got (.parameterName i) = nameDifference want.name (i + 1) p.name q := by
      simp [itemDifference, wanted, found]
    have type : itemDifference want got (.parameterType i) = typeDifference want.name p.type q := by
      simp [itemDifference, wanted, found]
    rw [parameterDifferences_eq, ← name, ← type, List.filterMap_eq_flatMap_toList]
    simp
  · rw [if_neg same, if_neg same]
    rfl

theorem resultsDifferences_eq (want : Expectation) (got : Signature) :
    resultsDifferences want got =
      if want.results.length = got.results.length then
        (resultItems want.results.length).filterMap (itemDifference want got)
      else [resultCount want got] := by
  unfold resultsDifferences
  by_cases same : want.results.length = got.results.length
  · rw [if_pos same, if_pos same, resultItems, List.filterMap_map, List.filterMap_eq_flatMap_toList]
    apply eachPair_eq_flatMap same
    intro i r s wanted found
    rw [resultDifferences_eq]
    simp [itemDifference, wanted, found]
  · rw [if_neg same, if_neg same]
    rfl

theorem visibilityDifferences_eq (want : Expectation) (got : Signature) :
    visibilityDifferences want got = [Item.visibility].filterMap (itemDifference want got) := by
  unfold visibilityDifferences
  cases expected : want.visibility with
  | none => simp [itemDifference, expected]
  | some v => by_cases same : v = got.visibility <;> simp [itemDifference, visibilityDifference, expected, same]

theorem differences_eq (want : Expectation) (got : Signature) :
    differences want got =
      (if want.parameters.length = got.parameters.length then
        (parameterItems want.parameters.length).filterMap (itemDifference want got)
      else [parameterCount want got]) ++
      (if want.results.length = got.results.length then
        (resultItems want.results.length).filterMap (itemDifference want got)
      else [resultCount want got]) ++
      [Item.visibility].filterMap (itemDifference want got) := by
  rw [differences, parametersDifferences_eq, resultsDifferences_eq, visibilityDifferences_eq]

theorem differences_of_counts (parameters : want.parameters.length = got.parameters.length)
    (results : want.results.length = got.results.length) :
    differences want got = want.items.filterMap (itemDifference want got) := by
  rw [differences_eq, if_pos parameters, if_pos results, items, List.filterMap_append, List.filterMap_append]

theorem nameDifference_blank (fn : String) (place : Nat) (q : Signature.Parameter) :
    nameDifference fn place "" q = none := if_neg fun asked => asked.1 rfl

theorem typeDifference_blank (fn : String) (q : Signature.Parameter) : typeDifference fn "" q = none :=
  if_neg fun asked => asked.1 rfl

theorem resultDifference_blank (fn : String) (place : Nat) (s : Signature.Result) :
    resultDifference fn place "" s = none := if_neg fun asked => asked.1 rfl

theorem itemDifference_without (want : Expectation) (got : Signature) (dropped : Item → Bool) (x : Item) :
    itemDifference (want.without dropped) got x = if dropped x then none else itemDifference want got x := by
  cases x with
  | parameterName i =>
    simp only [itemDifference, without, List.getElem?_mapIdx]
    cases want.parameters[i]? with
    | none => simp
    | some p => cases dropped (.parameterName i) <;> simp [nameDifference_blank]
  | parameterType i =>
    simp only [itemDifference, without, List.getElem?_mapIdx]
    cases want.parameters[i]? with
    | none => simp
    | some p => cases dropped (.parameterType i) <;> simp [typeDifference_blank]
  | resultType i =>
    simp only [itemDifference, without, List.getElem?_mapIdx]
    cases want.results[i]? with
    | none => simp
    | some r => cases dropped (.resultType i) <;> simp [resultDifference_blank]
  | visibility => cases gone : dropped .visibility <;> simp [itemDifference, without, gone]

theorem items_without (want : Expectation) (dropped : Item → Bool) : (want.without dropped).items = want.items := by
  simp [items, without]

variable (moduleName : String)

def itemFinding (want : Expectation) (got : Signature) (x : Item) : Option Finding :=
  (itemDifference want got x).map (mismatch moduleName got)

theorem map_mismatch (xs : List Item) :
    (xs.filterMap (itemDifference want got)).map (mismatch moduleName got) =
      xs.filterMap (itemFinding moduleName want got) := List.map_filterMap

theorem signature_eq (want : Expectation) (got : Signature) :
    signature moduleName want got =
      (if want.parameters.length = got.parameters.length then
        (parameterItems want.parameters.length).filterMap (itemFinding moduleName want got)
      else [mismatch moduleName got (parameterCount want got)]) ++
      (if want.results.length = got.results.length then
        (resultItems want.results.length).filterMap (itemFinding moduleName want got)
      else [mismatch moduleName got (resultCount want got)]) ++
      [Item.visibility].filterMap (itemFinding moduleName want got) := by
  rw [signature, differences_eq, List.map_append, List.map_append, map_mismatch, apply_ite (List.map _),
    apply_ite (List.map _), map_mismatch, map_mismatch]
  rfl

theorem signature_of_counts (parameters : want.parameters.length = got.parameters.length)
    (results : want.results.length = got.results.length) :
    signature moduleName want got = want.items.filterMap (itemFinding moduleName want got) := by
  rw [signature, differences_of_counts parameters results, map_mismatch]

theorem signature_without (parameters : want.parameters.length = got.parameters.length)
    (results : want.results.length = got.results.length) (dropped : Item → Bool) :
    signature moduleName (want.without dropped) got =
      (want.items.filter fun x => !dropped x).filterMap (itemFinding moduleName want got) := by
  have kept : itemFinding moduleName (want.without dropped) got =
      fun x => if !dropped x then itemFinding moduleName want got x else none := by
    funext x
    rw [itemFinding, itemDifference_without]
    cases dropped x <;> rfl
  rw [signature_of_counts moduleName (by simpa [without] using parameters) (by simpa [without] using results),
    items_without, kept, List.filterMap_filter]

theorem signature_expectation (got : Signature) (language filePattern : String) :
    signature moduleName (got.expectation language filePattern) got = [] := by
  rw [signature_eq_nil_iff]
  constructor
  case parameters => exact List.forall₂_same.2 fun p _ => ⟨fun _ => rfl, fun _ => sameType_refl p.type⟩
  case results => exact List.forall₂_same.2 fun r _ _ => sameType_refl r.type
  case visibility =>
    intro v expected
    cases expected
    rfl

/-- The findings on a signature go by items: if the parameters are as many as expected there is at most one finding for
each name and each type among them, and otherwise one finding for all of them; so it is with the results, and the
visibility comes last. What is blanked of an expectation takes its own findings with it and leaves all others as they
are. A signature is as expected if all that is expected is its own. -/
theorem signature_weakened (moduleName : String) (want : Expectation) (got : Signature) (dropped : Item → Bool)
    (language filePattern : String) :
    signature moduleName want got =
      (if want.parameters.length = got.parameters.length then
        (parameterItems want.parameters.length).filterMap (itemFinding moduleName want got)
      else [mismatch moduleName got (parameterCount want got)]) ++
      (if want.results.length = got.results.length then
        (resultItems want.results.length).filterMap (itemFinding moduleName want got)
      else [mismatch moduleName got (resultCount want got)]) ++
      [Item.visibility].filterMap (itemFinding moduleName want got) ∧
    (want.parameters.length = got.parameters.length → want.results.length = got.results.length →
      signature moduleName want got = want.items.filterMap (itemFinding moduleName want got) ∧
      signature moduleName (want.without dropped) got =
        (want.items.filter fun x => !dropped x).filterMap (itemFinding moduleName want got) ∧
      (signature moduleName (want.without dropped) got).Sublist (signature moduleName want got)) ∧
    signature moduleName (got.expectation language filePattern) got = [] := by
  refine ⟨signature_eq moduleName want got, ?_, signature_expectation moduleName got language filePattern⟩
  intro parameters results
  have whole := signature_of_counts moduleName parameters results
  have part := signature_without moduleName parameters results dropped
  refine ⟨whole, part, ?_⟩
  rw [whole, part]
  exact List.filter_sublist.filterMap _

/-- A function that has its parameter under another name and type, and is not private. -/
def strayFunction : Signature where
  name := "load"
  parameters := [⟨"key", "int"⟩]
  file := "app/store.py"
  line := 3

def strayExpectation : Expectation where
  name := "load"
  parameters := [⟨"id", "str"⟩]
  visibility := some .priv

theorem signature_weakened_stray :
    strayExpectation.parameters.length = strayFunction.parameters.length ∧
    strayExpectation.results.length = strayFunction.results.length ∧
    (signature "store" (strayExpectation.without fun x => x = .parameterType 0) strayFunction).map (·.message) =
      ["Function 'load' parameter 1: name 'key' doesn't match expected 'id' (in store.py:3)",
        "Function 'load' has visibility 'public' but expected 'private' (in store.py:3)"] := by
  refine ⟨rfl, rfl, ?_⟩
  rw [((signature_weakened "store" strayExpectation strayFunction (fun x => x = .parameterType 0) "" "").2.1 rfl rfl).2.1]
  decide +kernel

end Check

end Drift
