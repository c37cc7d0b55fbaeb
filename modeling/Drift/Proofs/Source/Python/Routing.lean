import Drift.Proofs.Recognizer.Preferred
import Drift.Proofs.Route.Pairing
import Drift.Proofs.Source.Nearest
import Drift.Source.Python

namespace Drift.Source.Python

open Route

abbrev Numbered := Nat × Line

def Numbered.defines : Numbered → Bool
  | (_, .code (some _) _) => true
  | _ => false

def Numbered.decorator : Numbered → Option Pending
  | (n, .routed methods path) => some ⟨methods.map String.ofList, String.ofList path, n⟩
  | _ => none

/-- The decorator on the nearest line that is a decorator or defines a function. -/
def decoratorBefore (earlier : List Numbered) : Option Pending :=
  standing Numbered.decorator Numbered.defines earlier

def emitted (file : String) (earlier : List Numbered) : Numbered → List Endpoint
  | (n, .code defined pattern) =>
    match decoratorBefore earlier with
    | some d => defined.toList.flatMap fun fn =>
        d.methods.map fun m => endpoint .python file n m.toList d.path.toList fn
    | none => pattern.toList.map fun (path, handler) => endpoint .python file n "GET".toList path handler
  | _ => []

def classified (text : List Char) : List Numbered :=
  (Text.numberedLines text).map fun (n, line) => (n, Line.of (Text.trim line))

theorem decoratorMethods_ne_nil (verb args : List Char) : decoratorMethods verb args ≠ [] := by
  unfold decoratorMethods
  split
  · exact List.cons_ne_nil _ _
  · dsimp only
    split
    · exact List.cons_ne_nil _ _
    · rename_i named
      exact fun none => named (List.isEmpty_iff.2 none)

theorem Line.of_routed {stripped path : List Char} {methods : List (List Char)}
    (read : Line.of stripped = .routed methods path) : methods ≠ [] := by
  unfold Line.of at read
  split at read
  · cases read
    exact decoratorMethods_ne_nil _ _
  · cases read

/-- Blank lines, comments and decorators that route nothing define nothing. -/
theorem Line.of_silent {stripped : List Char} (unrouted : decorator.atStart stripped = none)
    (head : ∀ c ∈ stripped.head?, c = '#' ∨ c = '@') : ∃ pattern, Line.of stripped = .code none pattern := by
  have noAsync : ¬ "async".toList <+: stripped := by
    rintro ⟨rest, rfl⟩
    exact absurd (head 'a' (by simp)) (by decide)
  have noDef : ¬ "def".toList <+: stripped := by
    rintro ⟨rest, rfl⟩
    exact absurd (head 'd' (by simp)) (by decide)
  have undefined : definitionName.Refuses (.start stripped) := by
    apply Recognizer.Refuses.after (.skip (.optional_none (.bind (.text noAsync))))
    exact .bind (.bind (.text noDef))
  rw [Line.of, unrouted, undefined.atStart]
  exact ⟨_, rfl⟩

variable {earlier : List Numbered} {i : Numbered}

theorem Numbered.decorator_defines (defines : i.defines = true) : i.decorator = none := by
  obtain ⟨n, line⟩ := i
  cases line with
  | routed methods path => cases defines
  | code defined pattern => rfl

theorem decoratorBefore_defines (defines : i.defines = true) (earlier : List Numbered) :
    decoratorBefore (earlier ++ [i]) = none :=
  standing_taken (Numbered.decorator_defines defines) defines

theorem decoratorBefore_passed (n : Nat) (pattern : Option (List Char × List Char)) (earlier : List Numbered) :
    decoratorBefore (earlier ++ [(n, .code none pattern)]) = decoratorBefore earlier := standing_passed rfl rfl

theorem routeStep_decoratorBefore (file : String) (filled : ∀ d ∈ decoratorBefore earlier, d.methods ≠ []) (n : Nat)
    (line : List Char) : routeStep file (decoratorBefore earlier) n line =
      (decoratorBefore (earlier ++ [(n, Line.of (Text.trim line))]),
        emitted file earlier (n, Line.of (Text.trim line))) := by
  rw [routeStep]
  cases read : Line.of (Text.trim line) with
  | routed methods path =>
    have named : methods.map String.ofList ≠ [] := by simpa using Line.of_routed read
    have replaced := Pairing.annotate_anew filled named (String.ofList path) n
    have stands : decoratorBefore (earlier ++ [(n, .routed methods path)]) =
        some ⟨methods.map String.ofList, String.ofList path, n⟩ := standing_marked rfl
    dsimp only
    rw [replaced, stands]
    rfl
  | code defined pattern =>
    cases defined with
    | none =>
      rw [decoratorBefore_passed, emitted]
      cases decoratorBefore earlier <;> rfl
    | some fn =>
      rw [decoratorBefore_defines rfl, emitted]
      cases decoratorBefore earlier with
      | none => rfl
      | some d => exact Prod.ext rfl (List.append_nil _).symm

theorem endpoints_eq_emitted (file : String) (text : List Char) :
    endpoints file text = (withEarlier (classified text)).flatMap fun (earlier, line) => emitted file earlier line := by
  have start : Pairing.fresh = decoratorBefore [] := rfl
  rw [endpoints, scanLines, start]
  refine scan_of_passed (fun passed n line => ?_) _
  refine routeStep_decoratorBefore file (fun d stands => ?_) n line
  obtain ⟨⟨k, l⟩, mem, set⟩ := mem_of_standing stands
  obtain ⟨⟨m, line⟩, -, same⟩ := List.mem_map.1 mem
  cases same
  cases read : Line.of (Text.trim line) with
  | routed methods path =>
    simp only [read, Numbered.decorator, Option.some.injEq] at set
    subst set
    simpa using Line.of_routed read
  | code defined pattern => simp [read, Numbered.decorator] at set

/-- What a Python file declares, line by line: a function has the routes of the decorator before it, and a line that no
decorator stands before is an endpoint if it holds a URL pattern. Each decorator is used once at most, and lines that
neither route nor define anything leave it as it stands: blank ones, comments and other decorators among them. -/
theorem endpoints_decorated (file : String) (text : List Char) :
    (endpoints file text =
      (withEarlier (classified text)).flatMap fun (earlier, line) => emitted file earlier line) ∧
    (taken Numbered.decorator Numbered.defines (classified text)).Sublist
      ((classified text).filterMap Numbered.decorator) ∧
    (∀ earlier n pattern, decoratorBefore (earlier ++ [(n, .code none pattern)]) = decoratorBefore earlier) ∧
    ∀ stripped, decorator.atStart stripped = none → (∀ c ∈ stripped.head?, c = '#' ∨ c = '@') →
      ∃ pattern, Line.of stripped = .code none pattern := by
  refine ⟨endpoints_eq_emitted file text, taken_sublist ?_ _, ?_, ?_⟩
  · exact fun _ defines => Numbered.decorator_defines defines
  · exact fun earlier n pattern => decoratorBefore_passed n pattern earlier
  · exact fun _ unrouted head => Line.of_silent unrouted head

example : (endpoints "a.py" ("@app.post(\"/a\")\n# def g():\n\n@login_required\ndef f():\ndef g():\n" ++
      "path(\"b/\", views.h),").toList).map (fun e => (e.method, e.path, e.handler, e.line)) =
    [("POST", "/a", "f", 5), ("GET", "b/", "views.h", 7)] := by decide +kernel

end Drift.Source.Python
