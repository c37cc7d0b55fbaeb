import Drift.Proofs.Document.Fences
import Mathlib.Data.List.Dedup

namespace Drift.Document

structure Section where
  method : String
  path : List Char
  bullets : List Endpoint.Parameter

def bulletsOf : List Line → List Endpoint.Parameter
  | [] => []
  | .endpoint _ _ :: _ => []
  | .heading :: _ => []
  | .bullet p :: ls => p :: bulletsOf ls
  | .blank :: ls => bulletsOf ls
  | .prose _ :: ls => bulletsOf ls

def sections : List Line → List Section
  | [] => []
  | .endpoint method path :: ls => ⟨method, path, bulletsOf ls⟩ :: sections ls
  | _ :: ls => sections ls

def openLines (ls : List (List Char)) : List Line :=
  ls.zipIdx.filterMap fun (l, k) => if isFenceLine l ∨ Fenced ls k then none else some (Line.of (Text.trim l))

/-- A required parameter of the path. The first of its name in a list gives its type and its description. -/
def requiredParameter (ps : List Endpoint.Parameter) (paramName : String) : Endpoint.Parameter where
  name := paramName
  location := "path"
  required := true
  type := ((ps.find? (·.name == paramName)).map (·.type)).getD "string"
  description := ((ps.find? (·.name == paramName)).map (·.description)).getD s!"{paramName} identifier"

theorem placeParameter_eq (ps : List Endpoint.Parameter) (n : String) :
    placeParameter ps n = ps.filter (·.name != n) ++ [requiredParameter ps n] := rfl

/-- A parameter that is placed is described by what it replaces, and no other is described differently for it. -/
theorem requiredParameter_placed (ps : List Endpoint.Parameter) (n m : String) :
    requiredParameter (placeParameter ps n) m = requiredParameter ps m := by
  by_cases same : m = n
  · subst same
    have found : (placeParameter ps m).find? (·.name == m) = some (requiredParameter ps m) := by
      have gone : (ps.filter (·.name != m)).find? (·.name == m) = none := by simp
      rw [placeParameter_eq, List.find?_append, gone]
      simp [requiredParameter]
    rw [requiredParameter, found]
    rfl
  · have kept : (placeParameter ps n).find? (·.name == m) = ps.find? (·.name == m) := by
      have other : [requiredParameter ps n].find? (·.name == m) = none := by simp [requiredParameter, Ne.symm same]
      rw [placeParameter_eq, List.find?_append, other, Option.or_none, List.find?_filter]
      congr 1
      funext p
      by_cases here : p.name = m <;> simp [here, same]
    rw [requiredParameter, kept]
    rfl

theorem foldl_placeParameter (names : List String) (ps : List Endpoint.Parameter) :
    names.foldl placeParameter ps = ps.filter (·.name ∉ names) ++ names.dedup.map (requiredParameter ps) := by
  induction names generalizing ps with
  | nil => simp
  | cons n names ih =>
    have others : (ps.filter (·.name != n)).filter (·.name ∉ names) = ps.filter (·.name ∉ n :: names) := by
      rw [List.filter_filter]
      congr 1
      funext p
      rw [Bool.eq_iff_iff]
      simp [and_comm]
    rw [List.foldl_cons, ih, funext (requiredParameter_placed ps n), placeParameter_eq, List.filter_append, others]
    -- of a name that comes again only the last place counts
    by_cases again : n ∈ names
    · have gone : [requiredParameter ps n].filter (·.name ∉ names) = [] := by simp [requiredParameter, again]
      rw [gone, List.append_nil, List.dedup_cons_of_mem again]
    · have kept : [requiredParameter ps n].filter (·.name ∉ names) = [requiredParameter ps n] := by
        simp [requiredParameter, again]
      rw [kept, List.dedup_cons_of_notMem again, List.append_assoc, List.map_cons]
      rfl

namespace Section

/-- The names that stand as `:name` or as a name in braces in the path, from left to right. -/
def names (s : Section) : List String := (pathParameter.findAll s.path).map String.ofList

/-- The bullets of names that the path has no place for; then the names of the path, each at its last place. -/
def parameters (s : Section) : List Endpoint.Parameter :=
  s.bullets.filter (·.name ∉ s.names) ++ s.names.dedup.map (requiredParameter s.bullets)

end Section

def Section.documented (s : Section) : String × String × List Endpoint.Parameter :=
  (s.method, String.ofList s.path, s.parameters)

def documented (e : Endpoint) : String × String × List Endpoint.Parameter := (e.method, e.path, e.parameters)

def sectionOf (e : Endpoint) (later : List Endpoint.Parameter) : Section :=
  ⟨e.method, e.path.toList, e.parameters ++ later⟩

theorem documented_finish (e : Endpoint) : documented (finish e) = (sectionOf e []).documented := by
  rw [Section.documented, Section.parameters, Section.names, sectionOf, List.append_nil, String.ofList_toList,
    ← foldl_placeParameter]
  rfl

theorem sectionOf_addExample (e : Endpoint) (body : List Char) (later : List Endpoint.Parameter) :
    sectionOf (addExample e body) later = sectionOf e later := by
  unfold addExample
  split <;> rfl

theorem sectionOf_prose (e : Endpoint) (text : List Char) (later : List Endpoint.Parameter) :
    sectionOf (addLine e (.prose text)) later = sectionOf e later := by
  rw [addLine]
  split <;> rfl

def sectionsFrom (current : Option Endpoint) (ls : List Line) : List Section :=
  (current.map fun e => sectionOf e (bulletsOf ls)).toList ++ sections ls

/-- An endpoint that is given out is that of its section, and what is still being read is kept. -/
theorem readLine_documented (source : String) (s : State) (n : Nat) (l : Line) (ls : List Line) :
    (readLine source s n l).2.map documented ++
        (sectionsFrom (readLine source s n l).1.current ls).map Section.documented =
      (sectionsFrom s.current (l :: ls)).map Section.documented := by
  obtain ⟨current, block⟩ := s
  cases current with
  | none => cases l <;> simp [readLine, sectionsFrom, sections, sectionOf]
  | some e =>
    cases l with
    | endpoint method path =>
      have started (later : List Endpoint.Parameter) :
          sectionOf { method, path := String.ofList path, file := source, line := n } later = ⟨method, path, later⟩ := by
        simp [sectionOf]
      simp [readLine, sectionsFrom, sections, bulletsOf, documented_finish, started]
    | heading => simp [readLine, sectionsFrom, sections, bulletsOf, documented_finish]
    | blank => rfl
    | bullet p => simp [readLine, sectionsFrom, sections, bulletsOf, addLine, sectionOf]
    | prose text => simp [readLine, sectionsFrom, sections, bulletsOf, sectionOf_prose]

theorem step_documented (source : String) (s : State) (n : Nat) (line : List Char) (ls : List Line) :
    (step source s n line).2.map documented ++
        (sectionsFrom (step source s n line).1.current ls).map Section.documented =
      (sectionsFrom s.current
        ((if isFenceLine line ∨ s.block?.isSome then none else some (Line.of (Text.trim line))).toList ++ ls)).map
          Section.documented := by
  cases block : s.block? with
  | some b =>
    cases fence : isFenceLine line with
    | true =>
      rw [step_closing block fence, closeBlock]
      split
      · cases s.current <;> simp [sectionsFrom, sectionOf_addExample]
      · simp
    | false => simp [step_inside block fence]
  | none =>
    cases fence : isFenceLine line with
    | true => simp [step_opening block fence]
    | false => simp [step_outside block fence, readLine_documented]

/-- The endpoints of an outline have the parameters that their sections tell: first the bullets of names that the path
has no place for, then one required parameter for each name of the path, in the order in which the names come last. The
first bullet of such a name gives its type and description. -/
theorem outlineEndpoints_parameters (source : String) (text : List Char) :
    (outlineEndpoints source text).map (fun e => (e.method, e.path, e.parameters)) =
      (sections (openLines (Text.lines text))).map fun s =>
        (s.method, String.ofList s.path,
          s.bullets.filter (·.name ∉ s.names) ++ s.names.dedup.map (requiredParameter s.bullets)) := by
  refine endpointsFrom_map (s := {}) documented (fun _ l => some (Line.of (Text.trim l)))
    (fun current ls => (sectionsFrom current ls).map Section.documented) ?_ ?_ [] (by simp [fencesBefore])
  · intro current
    cases current <;> simp [sectionsFrom, sections, bulletsOf, documented_finish]
  · exact fun s n l ls => step_documented source s (n + 1) l ls

example : (Section.parameters ⟨"GET", "/:a/\x7bb\x7d/:a".toList, [⟨"a", "query", false, "int", "first"⟩, { name := "x" }]⟩) =
    [{ name := "x" }, { name := "b", location := "path", required := true, description := "b identifier" },
      { name := "a", location := "path", required := true, type := "int", description := "first" }] := by decide +kernel

end Drift.Document
