import Drift.Endpoint
import Drift.Proofs.Route.Segments
import Drift.Proofs.Text.Joining
import Drift.Recognizer.Source
import Drift.Source.Nesting

namespace Drift

inductive Verb where
  | get | post | put | delete | patch
  deriving DecidableEq

namespace Verb

def upper : Verb → String
  | get => "GET"
  | post => "POST"
  | put => "PUT"
  | delete => "DELETE"
  | patch => "PATCH"

def lower : Verb → String
  | get => "get"
  | post => "post"
  | put => "put"
  | delete => "delete"
  | patch => "patch"

def title : Verb → String
  | get => "Get"
  | post => "Post"
  | put => "Put"
  | delete => "Delete"
  | patch => "Patch"

theorem upper_known (v : Verb) : v.upper ∈ httpMethods := by cases v <;> decide

theorem upper_upper (v : Verb) : String.ofList (Text.upper v.upper.toList) = v.upper := by cases v <;> decide +kernel

theorem upper_lower (v : Verb) : String.ofList (Text.upper v.lower.toList) = v.upper := by cases v <;> decide +kernel

theorem upper_title (v : Verb) : String.ofList (Text.upper v.title.toList) = v.upper := by cases v <;> decide +kernel

end Verb

/-- A segment of ASCII letters, digits and underscores, and of hyphens if it is no parameter. -/
def Route.Segment.isPlain : Route.Segment → Bool
  | .literal t => t.text.all fun c => c.isAlphanum || c == '_' || c == '-'
  | .parameter n => n.text.all fun c => c.isAlphanum || c == '_'

structure DeclaredRoute where
  verb : Verb
  segments : List Route.Segment
  plain : ∀ s ∈ segments, s.isPlain = true
  deriving DecidableEq

def isPathChar (c : Char) : Bool := c.isAlphanum || ['_', '-', '/', ':', '{', '}', '<', '>'].contains c

theorem isBlank_of_isPathChar {c : Char} (path : isPathChar c = true) : Text.isBlank c = false :=
  Text.isBlank_of_class (p := isPathChar) (by decide +kernel) path

theorem not_mem_of_isPathChar {x : Char} {t : List Char} (path : ∀ c ∈ t, isPathChar c = true)
    (other : isPathChar x = false) : x ∉ t := by
  intro mem
  rw [path x mem] at other
  cases other

theorem isQuote_of_isPathChar {c : Char} (path : isPathChar c = true) : Source.isQuote c = false := by
  rw [Bool.eq_false_iff]
  intro quote
  simp only [Source.isQuote, Bool.or_eq_true, beq_iff_eq] at quote
  rcases quote with (rfl | rfl) | rfl <;> exact absurd path (by decide)

theorem isPlainQuote_of_isPathChar {c : Char} (path : isPathChar c = true) : Recognizer.isPlainQuote c = false := by
  rw [Bool.eq_false_iff]
  intro quote
  simp only [Recognizer.isPlainQuote, Bool.or_eq_true, beq_iff_eq] at quote
  rcases quote with rfl | rfl <;> exact absurd path (by decide)

theorem Route.Segment.isPathChar_of_mem_write {s : Route.Segment} (plain : s.isPlain = true) {spelling : Route.Spelling}
    (simple : ∀ k, spelling ≠ .converted k) {c : Char} (mem : c ∈ s.write spelling) : isPathChar c = true := by
  cases s with
  | literal t =>
    have fits := List.all_eq_true.1 plain c mem
    simp only [Bool.or_eq_true, beq_iff_eq] at fits
    rcases fits with (alpha | rfl) | rfl
    · simp [isPathChar, alpha]
    · decide
    · decide
  | parameter n =>
    have name : c ∈ n.text → isPathChar c = true := by
      intro mem
      have fits := List.all_eq_true.1 plain c mem
      simp only [Bool.or_eq_true, beq_iff_eq] at fits
      rcases fits with alpha | rfl
      · simp [isPathChar, alpha]
      · decide
    have signs : ∀ c ∈ [':', '{', '}', '<', '>'], isPathChar c = true := List.all_eq_true.1 (by decide)
    cases spelling with
    | colon =>
      rcases List.mem_cons.1 mem with rfl | mem
      · exact signs _ (by simp)
      · exact name mem
    | braces =>
      simp only [Route.Segment.write, Route.Spelling.write, Route.braced, List.cons_append, List.mem_cons,
        List.mem_append, List.not_mem_nil, or_false] at mem
      rcases mem with rfl | mem | rfl
      · exact signs _ (by simp)
      · exact name mem
      · exact signs _ (by simp)
    | angles =>
      simp only [Route.Segment.write, Route.Spelling.write, List.mem_cons, List.mem_append, List.not_mem_nil,
        or_false] at mem
      rcases mem with rfl | mem | rfl
      · exact signs _ (by simp)
      · exact name mem
      · exact signs _ (by simp)
    | converted k => exact absurd rfl (simple k)

namespace DeclaredRoute

def tail (spelling : Route.Spelling) (r : DeclaredRoute) : List Char :=
  Text.joinWith ['/'] (r.segments.map (Route.Segment.write spelling))

theorem write_eq (spelling : Route.Spelling) (r : DeclaredRoute) :
    Route.write spelling r.segments = '/' :: r.tail spelling := rfl

theorem isPathChar_of_mem_tail {spelling : Route.Spelling} (simple : ∀ k, spelling ≠ .converted k) (r : DeclaredRoute) :
    ∀ c ∈ r.tail spelling, isPathChar c = true := by
  intro c mem
  rcases Text.mem_joinWith mem with slash | ⟨w, written, mem⟩
  · cases List.mem_singleton.1 slash
    decide
  · obtain ⟨s, inside, rfl⟩ := List.mem_map.1 written
    exact Route.Segment.isPathChar_of_mem_write (r.plain s inside) simple mem

theorem isPathChar_of_mem_write {spelling : Route.Spelling} (simple : ∀ k, spelling ≠ .converted k)
    (r : DeclaredRoute) :
    ∀ c ∈ Route.write spelling r.segments, isPathChar c = true := by
  intro c mem
  rw [write_eq] at mem
  rcases List.mem_cons.1 mem with rfl | mem
  · decide
  · exact r.isPathChar_of_mem_tail simple c mem

end DeclaredRoute

def DeclaredRoute.path (spelling : Route.Spelling) (r : DeclaredRoute) : String :=
  String.ofList (Route.write spelling r.segments)

namespace Language

def spelling : Language → Route.Spelling
  | go | javascript | ruby => .colon
  | python => .angles
  | java | csharp => .braces

theorem spelling_simple (l : Language) : ∀ k, l.spelling ≠ .converted k := by
  intro k
  cases l <;> simp [spelling]

def declaration (l : Language) (v : Verb) (path : String) : List String :=
  match l with
  | go => ["r." ++ v.upper ++ "(\"" ++ path ++ "\", h)"]
  | javascript => ["app." ++ v.lower ++ "('" ++ path ++ "', h)"]
  | python => ["@app." ++ v.lower ++ "(\"" ++ path ++ "\")", "def h():"]
  | java => ["@" ++ v.title ++ "Mapping(\"" ++ path ++ "\")", "public String h() \x7b"]
  | csharp => ["[Http" ++ v.title ++ "(\"" ++ path ++ "\")]", "public IActionResult h() \x7b"]
  | ruby => [v.lower ++ " '" ++ path ++ "', to: 'c#h'"]

def handler : Language → String
  | ruby => "c#h"
  | _ => "h"

def declarationLength : Language → Nat
  | go | javascript | ruby => 1
  | python | java | csharp => 2

end Language

namespace DeclaredRoute

theorem tail_no (r : DeclaredRoute) {spelling : Route.Spelling} (simple : ∀ k, spelling ≠ .converted k) {x : Char}
    (other : isPathChar x = false) : x ∉ r.tail spelling :=
  not_mem_of_isPathChar (r.isPathChar_of_mem_tail simple) other

end DeclaredRoute

def IsLine (s : String) : Prop := ∀ c ∈ s.toList, Text.isLineBreak c = false

theorem IsLine.append {s t : String} (left : IsLine s) (right : IsLine t) : IsLine (s ++ t) := by
  intro c mem
  rw [String.toList_append, List.mem_append] at mem
  rcases mem with mem | mem
  · exact left c mem
  · exact right c mem

instance (s : String) : Decidable (IsLine s) :=
  decidable_of_iff ((s.toList.all fun c => !Text.isLineBreak c) = true) (by simp [IsLine])

theorem Verb.isLine (v : Verb) : IsLine v.upper ∧ IsLine v.lower ∧ IsLine v.title := by cases v <;> decide +kernel

theorem DeclaredRoute.isLine_path {spelling : Route.Spelling} (simple : ∀ k, spelling ≠ .converted k)
    (r : DeclaredRoute) :
    IsLine (r.path spelling) := by
  intro c mem
  rw [DeclaredRoute.path, String.toList_ofList] at mem
  exact Text.isLineBreak_of_not_blank (isBlank_of_isPathChar (r.isPathChar_of_mem_write simple c mem))

theorem Language.isLine_declaration (l : Language) (v : Verb) {path : String} (line : IsLine path) :
    ∀ s ∈ l.declaration v path, IsLine s := by
  obtain ⟨upper, lower, title⟩ := v.isLine
  have around : ∀ {a b c x : String}, IsLine a → IsLine b → IsLine c → IsLine x → IsLine (a ++ x ++ b ++ path ++ c) :=
    fun a b c x => (((a.append x).append b).append line).append c
  intro s mem
  cases l with
  | ruby =>
    cases List.mem_singleton.1 mem
    exact ((lower.append (by decide +kernel)).append line).append (by decide +kernel)
  | go =>
    cases List.mem_singleton.1 mem
    exact around (by decide +kernel) (by decide +kernel) (by decide +kernel) upper
  | javascript =>
    cases List.mem_singleton.1 mem
    exact around (by decide +kernel) (by decide +kernel) (by decide +kernel) lower
  | python =>
    rcases List.mem_cons.1 mem with rfl | mem
    · exact around (by decide +kernel) (by decide +kernel) (by decide +kernel) lower
    · cases List.mem_singleton.1 mem
      decide +kernel
  | java =>
    rcases List.mem_cons.1 mem with rfl | mem
    · exact around (by decide +kernel) (by decide +kernel) (by decide +kernel) title
    · cases List.mem_singleton.1 mem
      decide +kernel
  | csharp =>
    rcases List.mem_cons.1 mem with rfl | mem
    · exact around (by decide +kernel) (by decide +kernel) (by decide +kernel) title
    · cases List.mem_singleton.1 mem
      decide +kernel

theorem isLine_of_declared (l : Language) (r : DeclaredRoute) :
    ∀ s ∈ l.declaration r.verb (r.path l.spelling), ∀ c ∈ s.toList, Text.isLineBreak c = false :=
  l.isLine_declaration r.verb (r.isLine_path l.spelling_simple)

def program (l : Language) (rs : List DeclaredRoute) : List Char :=
  Text.unlines (rs.flatMap fun r => (l.declaration r.verb (r.path l.spelling)).map String.toList)

def outline (rs : List DeclaredRoute) : List Char :=
  Text.unlines (rs.map fun r => ("### " ++ r.verb.upper ++ " " ++ r.path .braces).toList)

end Drift
