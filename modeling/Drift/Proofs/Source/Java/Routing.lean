import Drift.Proofs.Route.Pairing
import Drift.Proofs.Source.Nearest
import Drift.Source.Java

namespace Drift.Source.Java

open Route

abbrev Numbered := Nat × Line

def Numbered.isType : Numbered → Bool
  | (_, .type) => true
  | _ => false

def Numbered.isDeclaration : Numbered → Bool
  | (_, .type) | (_, .method _) => true
  | _ => false

def Numbered.annotation : Numbered → Option Pending
  | (n, .mapping methods path) => some ⟨methods, String.ofList path, n⟩
  | _ => none

def annotationBefore (earlier : List Numbered) : Option Pending :=
  standing Numbered.annotation Numbered.isDeclaration earlier

def classRoute (earlier : List Numbered) : List Char :=
  match nearest Numbered.isType earlier with
  | some (before, _) => ((annotationBefore before).map (·.path.toList)).getD []
  | none => []

def emitted (file : String) (earlier : List Numbered) : Numbered → List Endpoint
  | (n, .method fn) =>
    match annotationBefore earlier with
    | some a => a.methods.map fun m =>
        endpoint .java file n m.toList (Route.join (classRoute earlier) a.path.toList) fn
    | none => []
  | _ => []

def classified (text : List Char) : List Numbered :=
  (Text.numberedLines text).map fun (n, line) => (n, Line.of (Text.trim line))

theorem mappingMethods_ne_nil (kind : String) (args : List Char) : mappingMethods kind args ≠ [] := by
  unfold mappingMethods
  by_cases general : kind = "Request"
  · rw [if_pos general]
    cases requestMethod.findAll args <;> simp
  · simp [general]

theorem Line.of_mapping {stripped path : List Char} {methods : List String}
    (read : Line.of stripped = .mapping methods path) : methods ≠ [] := by
  unfold Line.of at read
  split at read
  · cases read
    exact mappingMethods_ne_nil _ _
  · split at read
    · cases read
    · split at read <;> cases read

variable {earlier : List Numbered} {i : Numbered}

theorem Numbered.annotation_declaration (declares : i.isDeclaration = true) : i.annotation = none := by
  obtain ⟨n, line⟩ := i
  cases line with
  | mapping methods path => cases declares
  | _ => rfl

theorem annotationBefore_declaration (declares : i.isDeclaration = true) (earlier : List Numbered) :
    annotationBefore (earlier ++ [i]) = none :=
  standing_taken (Numbered.annotation_declaration declares) declares

theorem classRoute_type (n : Nat) (earlier : List Numbered) :
    classRoute (earlier ++ [(n, .type)]) = ((annotationBefore earlier).map (·.path.toList)).getD [] := by
  rw [classRoute, nearest_concat]
  rfl

theorem classRoute_passed (passed : i.isType = false) (earlier : List Numbered) :
    classRoute (earlier ++ [i]) = classRoute earlier := by
  rw [classRoute, nearest_concat, passed, if_neg Bool.false_ne_true, classRoute]

def stateAfter (earlier : List Numbered) : State where
  base := classRoute earlier
  pairing := annotationBefore earlier

theorem step_stateAfter (file : String) (filled : ∀ a ∈ annotationBefore earlier, a.methods ≠ []) (n : Nat) {l : Line}
    (named : ∀ methods path, l = .mapping methods path → methods ≠ []) :
    State.step file n (stateAfter earlier) l = (stateAfter (earlier ++ [(n, l)]), emitted file earlier (n, l)) := by
  cases l with
  | mapping methods path =>
    have replaced := Pairing.annotate_anew filled (named methods path rfl) (String.ofList path) n
    have stands : annotationBefore (earlier ++ [(n, .mapping methods path)]) = some ⟨methods, String.ofList path, n⟩ :=
      standing_marked rfl
    rw [stateAfter, stateAfter, stands, classRoute_passed rfl, State.step]
    dsimp only
    rw [replaced]
    rfl
  | type =>
    rw [stateAfter, stateAfter, annotationBefore_declaration rfl, classRoute_type]
    rfl
  | method fn =>
    rw [stateAfter, stateAfter, annotationBefore_declaration rfl, classRoute_passed rfl, State.step, emitted]
    cases before : annotationBefore earlier with
    | none => rfl
    | some a => rfl
  | other =>
    have stands : annotationBefore (earlier ++ [(n, .other)]) = annotationBefore earlier := standing_passed rfl rfl
    rw [stateAfter, stateAfter, stands, classRoute_passed rfl]
    rfl

theorem endpoints_eq_emitted (file : String) (text : List Char) :
    endpoints file text = (withEarlier (classified text)).flatMap fun (earlier, line) => emitted file earlier line := by
  have start : ({} : State) = stateAfter [] := rfl
  rw [endpoints, scanLines, start]
  refine scan_of_passed (fun passed n line => ?_) _
  refine step_stateAfter file (fun a stands => ?_) n (fun _ _ read => Line.of_mapping read)
  obtain ⟨⟨k, l⟩, mem, set⟩ := mem_of_standing stands
  obtain ⟨⟨m, line⟩, -, same⟩ := List.mem_map.1 mem
  cases same
  cases read : Line.of (Text.trim line) with
  | mapping methods path =>
    simp only [read, Numbered.annotation, Option.some.injEq] at set
    subst set
    exact Line.of_mapping read
  | _ => simp [read, Numbered.annotation] at set

/-- What a Java file declares, line by line: a method has the routes of the annotation before it, below the route of the
nearest class. Each annotation is taken once at most, by a class or by a method, none stands behind a declaration, and a
class with none has no route. -/
theorem endpoints_memoryless (file : String) (text : List Char) :
    (endpoints file text =
      (withEarlier (classified text)).flatMap fun (earlier, line) => emitted file earlier line) ∧
    (taken Numbered.annotation Numbered.isDeclaration (classified text)).Sublist
      ((classified text).filterMap Numbered.annotation) ∧
    (∀ earlier (i : Numbered), i.isDeclaration = true → annotationBefore (earlier ++ [i]) = none) ∧
    ∀ earlier n, annotationBefore earlier = none → classRoute (earlier ++ [(n, .type)]) = [] := by
  refine ⟨endpoints_eq_emitted file text, taken_sublist ?_ _, ?_, ?_⟩
  · exact fun _ declares => Numbered.annotation_declaration declares
  · exact fun earlier _ declares => annotationBefore_declaration declares earlier
  · intro earlier n none
    rw [classRoute_type, none]
    rfl

example : (endpoints "A.java" ("@RequestMapping(\"/a\")\nclass A \x7b\n@GetMapping(\"/b\")\nint f() \x7b\nint g() \x7b\n" ++
      "class B \x7b\n@PutMapping(\"/c\")\nint h() \x7b").toList).map (fun e => (e.method, e.path, e.handler, e.line)) =
    [("GET", "/a/b", "f", 4), ("PUT", "/c", "h", 8)] := by decide +kernel

end Drift.Source.Java
