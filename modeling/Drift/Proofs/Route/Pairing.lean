import Drift.Route.Pairing
import Mathlib.Data.List.DropRight

namespace Drift.Route

structure Mark where
  methods : List String
  path : Option String
  line : Int

def Mark.pathText (a : Mark) : String := a.path.getD ""

namespace Pairing

inductive Call where
  | annotate (a : Mark)
  | consume
  | reset

def Call.mark? : Call → Option Mark
  | annotate a => some a
  | _ => none

def step (p : Pairing) : Call → Pairing
  | .annotate a => p.annotate a.methods a.path a.line
  | .consume => p.consume.2
  | .reset => fresh

def run (calls : List Call) : Pairing := calls.foldl step fresh

def standing (calls : List Call) : List Mark :=
  (calls.rtakeWhile (·.mark?.isSome)).filterMap (·.mark?)

theorem run_concat (calls : List Call) (c : Call) : run (calls ++ [c]) = (run calls).step c := by
  rw [run, List.foldl_append]
  rfl

theorem standing_annotate (calls : List Call) (a : Mark) :
    standing (calls ++ [.annotate a]) = standing calls ++ [a] := by
  rw [standing, List.rtakeWhile_concat_pos _ _ _ rfl, List.filterMap_append]
  rfl

theorem standing_emptied {c : Call} (emptied : c.mark? = none) (calls : List Call) :
    standing (calls ++ [c]) = [] := by
  have ends : ¬ c.mark?.isSome = true := by simp [emptied]
  rw [standing, List.rtakeWhile_concat_neg (fun c : Call => c.mark?.isSome) _ _ ends]
  rfl

section LastGiven

variable {α : Type} [DecidableEq α]

/-- The last of some values that differs from the blank one, which stands in if there is none. -/
def lastGiven (blank : α) (xs : List α) : α := (xs.filter (· ≠ blank)).getLast?.getD blank

theorem lastGiven_concat (blank : α) (xs : List α) (x : α) :
    lastGiven blank (xs ++ [x]) = if x = blank then lastGiven blank xs else x := by
  rw [lastGiven, List.filter_append]
  by_cases same : x = blank
  · have dropped : [x].filter (· ≠ blank) = [] := by simp [same]
    rw [dropped, List.append_nil, if_pos same, lastGiven]
  · have kept : [x].filter (· ≠ blank) = [x] := by simp [same]
    rw [kept, List.getLast?_concat, if_neg same, Option.getD_some]

end LastGiven

def methodPlaces (annotations : List Mark) : List Nat := annotations.findIdxs (·.methods ≠ [])

theorem methodPlaces_concat (annotations : List Mark) (a : Mark) :
    methodPlaces (annotations ++ [a]) =
      methodPlaces annotations ++ if a.methods = [] then [] else [annotations.length] := by
  rw [methodPlaces, List.findIdxs_append, List.findIdxs_singleton]
  by_cases unnamed : a.methods = [] <;> simp [unnamed, methodPlaces]

theorem methodPlaces_eq_nil_iff (annotations : List Mark) :
    methodPlaces annotations = [] ↔ lastGiven [] (annotations.map (·.methods)) = [] := by
  induction annotations using List.reverseRecOn with
  | nil => exact iff_of_true rfl rfl
  | append_singleton annotations a ih =>
    rw [methodPlaces_concat, List.map_append, List.map_singleton, lastGiven_concat, List.append_eq_nil_iff, ih]
    by_cases unnamed : a.methods = [] <;> simp [unnamed]

/-- Where a path may come from. Two annotations with methods are about two declarations, so with the last of
them all begins anew. -/
def firstPlace (annotations : List Mark) : Nat :=
  let places := methodPlaces annotations
  if 2 ≤ places.length then places.getLast?.getD 0 else 0

theorem firstPlace_le (annotations : List Mark) : firstPlace annotations ≤ annotations.length := by
  have inside : ∀ place ∈ methodPlaces annotations, place ≤ annotations.length := by
    intro place mem
    obtain ⟨bound, -⟩ := List.mem_findIdxs_iff_exists_getElem_pos.1 mem
    exact Nat.le_of_lt bound
  rw [firstPlace]
  split
  · cases last : (methodPlaces annotations).getLast? with
    | none => exact Nat.zero_le _
    | some place => exact inside place (List.mem_of_getLast? last)
  · exact Nat.zero_le _

theorem firstPlace_unnamed {a : Mark} (unnamed : a.methods = []) (annotations : List Mark) :
    firstPlace (annotations ++ [a]) = firstPlace annotations := by
  rw [firstPlace, methodPlaces_concat, if_pos unnamed, List.append_nil, firstPlace]

theorem firstPlace_first {annotations : List Mark} (first : methodPlaces annotations = []) (a : Mark) :
    firstPlace (annotations ++ [a]) = firstPlace annotations := by
  have one : (methodPlaces (annotations ++ [a])).length ≤ 1 := by
    rw [methodPlaces_concat, first, List.nil_append]
    split
    · exact Nat.zero_le 1
    · exact Nat.le_refl 1
  rw [firstPlace, firstPlace, first, if_neg (by omega)]
  rfl

theorem firstPlace_anew {annotations : List Mark} {a : Mark} (named : methodPlaces annotations ≠ [])
    (again : a.methods ≠ []) : firstPlace (annotations ++ [a]) = annotations.length := by
  have filled : 0 < (methodPlaces annotations).length := List.length_pos_iff.2 named
  rw [firstPlace, methodPlaces_concat, if_neg again, List.getLast?_concat, List.length_append, List.length_singleton,
    if_pos (by omega), Option.getD_some]

def pathOf (annotations : List Mark) : String :=
  lastGiven "" ((annotations.drop (firstPlace annotations)).map (·.pathText))

theorem pathOf_kept {annotations : List Mark} {a : Mark}
    (kept : firstPlace (annotations ++ [a]) = firstPlace annotations) :
    pathOf (annotations ++ [a]) = if a.pathText = "" then pathOf annotations else a.pathText := by
  rw [pathOf, kept, List.drop_append_of_le_length (firstPlace_le annotations), List.map_append, List.map_singleton,
    lastGiven_concat, pathOf]

theorem pathOf_anew {annotations : List Mark} {a : Mark}
    (anew : firstPlace (annotations ++ [a]) = annotations.length) : pathOf (annotations ++ [a]) = a.pathText := by
  rw [pathOf, anew, List.drop_left, List.map_singleton, ← List.nil_append [a.pathText], lastGiven_concat]
  split
  case isTrue empty => exact empty.symm
  case isFalse => rfl

def described (annotations : List Mark) : Pairing :=
  annotations.getLast?.map fun last =>
    { methods := lastGiven [] (annotations.map (·.methods))
      path := pathOf annotations
      line := last.line }

theorem annotate_merges {current : Pending} {a : Mark} (merged : current.methods = [] ∨ a.methods = []) :
    annotate (some current) a.methods a.path a.line = some {
      methods := if a.methods = [] then current.methods else a.methods
      path := if a.pathText = "" then current.path else a.pathText
      line := a.line } := by
  have one : (current.methods.isEmpty || a.methods.isEmpty) = true := by simpa using merged
  rw [annotate, if_pos one]
  congr 2
  · by_cases unnamed : a.methods = [] <;> simp [unnamed]
  · by_cases pathless : a.pathText = "" <;> simp_all [Mark.pathText]

theorem annotate_replaces {current : Pending} {a : Mark} (waits : current.methods ≠ []) (named : a.methods ≠ []) :
    annotate (some current) a.methods a.path a.line =
      some { methods := a.methods, path := a.pathText, line := a.line } := by
  have two : ¬ (current.methods.isEmpty || a.methods.isEmpty) = true := by simp [waits, named]
  rw [annotate, if_neg two, Mark.pathText]

theorem annotate_anew {p : Pairing} (waits : ∀ current ∈ p, current.methods ≠ []) {methods : List String}
    (named : methods ≠ []) (path : String) (line : Int) :
    p.annotate methods (some path) line = some { methods, path, line } := by
  cases p with
  | none => rfl
  | some current => exact annotate_replaces (a := ⟨methods, some path, line⟩) (waits current rfl) named

theorem annotate_methods (p : Pairing) {methods : List String} (named : methods ≠ []) (path : Option String) (line : Int) :
    ∃ q, p.annotate methods path line = some q ∧ q.methods = methods := by
  have some_methods : methods.isEmpty = false := by simpa using named
  cases p with
  | none => exact ⟨_, rfl, rfl⟩
  | some current =>
    rw [annotate]
    split
    · exact ⟨_, rfl, by rw [some_methods, if_neg Bool.false_ne_true]⟩
    · exact ⟨_, rfl, rfl⟩

theorem described_concat (annotations : List Mark) (a : Mark) :
    described (annotations ++ [a]) = some {
      methods := if a.methods = [] then lastGiven [] (annotations.map (·.methods)) else a.methods
      path := pathOf (annotations ++ [a])
      line := a.line } := by
  rw [described, List.getLast?_concat, Option.map_some, List.map_append, List.map_singleton, lastGiven_concat]

theorem annotate_described (annotations : List Mark) (a : Mark) :
    (described annotations).annotate a.methods a.path a.line = described (annotations ++ [a]) := by
  rw [described_concat]
  cases latest : annotations.getLast? with
  | none =>
    obtain rfl := List.getLast?_eq_none_iff.1 latest
    have path : pathOf ([] ++ [a]) = a.pathText := pathOf_anew (firstPlace_first rfl a)
    have methods : (if a.methods = [] then lastGiven [] [] else a.methods) = a.methods := by
      split
      case isTrue unnamed => exact unnamed.symm
      case isFalse => rfl
    rw [path, List.map_nil, methods]
    rfl
  | some last =>
    -- merged unless methods wait and more come, and only then the path begins anew
    have waiting := methodPlaces_eq_nil_iff annotations
    rw [described, latest, Option.map_some]
    by_cases unnamed : a.methods = []
    · rw [annotate_merges (.inr unnamed), pathOf_kept (firstPlace_unnamed unnamed annotations)]
    by_cases first : methodPlaces annotations = []
    · rw [annotate_merges (.inl (waiting.1 first)), pathOf_kept (firstPlace_first first a)]
    · rw [annotate_replaces (fun none => first (waiting.2 none)) unnamed, pathOf_anew (firstPlace_anew first unnamed),
        if_neg unnamed]

theorem run_eq_described (calls : List Call) : run calls = described (standing calls) := by
  -- on the last call, since only the calls at the end still count
  induction calls using List.reverseRecOn with
  | nil => rfl
  | append_singleton calls c ih =>
    rw [run_concat, ih]
    cases c with
    | annotate a => rw [standing_annotate, ← annotate_described, step]
    | consume =>
      rw [standing_emptied rfl]
      rfl
    | reset =>
      rw [standing_emptied rfl]
      rfl

theorem described_eq_none_iff (annotations : List Mark) : described annotations = none ↔ annotations = [] := by
  rw [described, Option.map_eq_none_iff, List.getLast?_eq_none_iff]

/-- After any calls a route is awaited exactly if annotations came since the pairing was last emptied. Its line
is that of the last of them, its methods are the last that were named, and its path is the last that was given
from the place on where the description of one declaration begins. -/
theorem run_holds_standing (calls : List Call) :
    ((run calls).awaiting = true ↔ standing calls ≠ []) ∧
    ((run calls).consume.1 = none ↔ standing calls = []) ∧
    ∀ route, (run calls).consume.1 = some route →
      (standing calls).getLast?.map (·.line) = some route.line ∧
      route.methods = lastGiven [] ((standing calls).map (·.methods)) ∧
      route.path = lastGiven "" (((standing calls).drop (firstPlace (standing calls))).map (·.pathText)) := by
  have taken : (run calls).consume.1 = described (standing calls) := run_eq_described calls
  have idle : (run calls).consume.1 = none ↔ standing calls = [] := by rw [taken, described_eq_none_iff]
  refine ⟨?_, idle, ?_⟩
  · rw [ne_eq, ← idle, awaiting, Option.isSome_iff_ne_none]
    rfl
  · intro route returned
    rw [taken, described, Option.map_eq_some_iff] at returned
    obtain ⟨last, latest, rfl⟩ := returned
    exact ⟨by rw [latest, Option.map_some], rfl, rfl⟩

example : (run [.annotate ⟨[], some "users", 1⟩, .annotate ⟨["GET"], none, 2⟩, .annotate ⟨["PUT"], none, 3⟩]).consume.1 =
    some ⟨["PUT"], "", 3⟩ := by decide

end Pairing

end Drift.Route
