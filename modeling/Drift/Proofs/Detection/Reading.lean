import Drift.Proofs.Detection.Declared
import Drift.Proofs.Document.Outline
import Drift.Proofs.Source.CSharp
import Drift.Proofs.Source.Go
import Drift.Proofs.Source.Java
import Drift.Proofs.Source.JavaScript
import Drift.Proofs.Source.Python
import Drift.Proofs.Source.Ruby
import Drift.Proofs.Source.Scan
import Drift.Source.Extract

namespace Drift

namespace DeclaredRoute

def inCode (l : Language) (file : String) (r : DeclaredRoute) (line : Nat) : Endpoint where
  method := r.verb.upper
  path := r.path l.spelling
  handler := l.handler
  file
  line
  language := some l

theorem endpoint_eq {l : Language} {file : String} {line : Nat} {r : DeclaredRoute} {method path handler : List Char}
    (methods : String.ofList (Text.upper method) = r.verb.upper) (paths : path = '/' :: r.tail l.spelling)
    (handlers : handler = l.handler.toList) :
    Source.endpoint l file line method path handler = r.inCode l file line := by
  rw [Source.endpoint, inCode, methods, paths, handlers, DeclaredRoute.path, write_eq, String.ofList_toList]

end DeclaredRoute

open DeclaredRoute

namespace Source

open Recognizer

variable (file : String) (n : Nat) (r : DeclaredRoute)

theorem Go.lineEndpoints_declaration :
    Go.lineEndpoints file n ("r." ++ r.verb.upper ++ "(\"" ++ r.path .colon ++ "\", h)").toList =
      [r.inCode .go file n] := by
  have known : r.verb.upper ∈ Go.routeVerbs := by cases r.verb <;> decide
  have noQuote : '"' ∉ r.tail .colon := r.tail_no (Language.spelling_simple .go) (by decide)
  have call : ("r." ++ r.verb.upper ++ "(\"" ++ r.path .colon ++ "\", h)").toList =
      Go.routeCall ['r'] r.verb.upper (r.tail .colon) ", h)".toList := by
    simp [Go.routeCall, DeclaredRoute.path, write_eq]
  have named : handlerName (Go.callArgs ", h)".toList) = Language.go.handler.toList := by decide +kernel
  rw [call]
  apply (Go.lineEndpoints_routeCall file n (.of ['r'] (by decide)) known noQuote ", h)".toList).trans
  apply congrArg (fun e => [e])
  exact endpoint_eq (l := .go) r.verb.upper_upper rfl named

theorem JavaScript.lineEndpoints_declaration :
    JavaScript.lineEndpoints file n ("app." ++ r.verb.lower ++ "('" ++ r.path .colon ++ "', h)").toList =
      [r.inCode .javascript file n] := by
  have known : r.verb.lower ∈ JavaScript.verbs := by cases r.verb <;> decide
  have noQuote : ∀ c ∈ r.tail .colon, isQuote c = false := by
    intro c mem
    exact isQuote_of_isPathChar (r.isPathChar_of_mem_tail (Language.spelling_simple .javascript) c mem)
  have call : ("app." ++ r.verb.lower ++ "('" ++ r.path .colon ++ "', h)").toList =
      JavaScript.routeCall "app" r.verb.lower '\'' (r.tail .colon) (',' :: " h)".toList) := by
    simp [JavaScript.routeCall, DeclaredRoute.path, write_eq]
  have named :
      handlerName (Text.trimLeftWhile (· == ',') (',' :: " h)".toList)) = Language.javascript.handler.toList := by
    decide +kernel
  rw [call, JavaScript.lineEndpoints_routeCall file n (by decide) known (by decide) noQuote (by decide)]
  apply congrArg (fun e => [e])
  exact endpoint_eq (l := .javascript) r.verb.upper_lower rfl named

theorem Ruby.lineEndpoints_declaration :
    Ruby.lineEndpoints file n (r.verb.lower ++ " '" ++ r.path .colon ++ "', to: 'c#h'").toList =
      [r.inCode .ruby file n] := by
  have known : r.verb.lower ∈ Ruby.routeVerbs := by cases r.verb <;> decide
  have noQuote : ∀ c ∈ '/' :: r.tail .colon, isPlainQuote c = false := by
    intro c mem
    exact isPlainQuote_of_isPathChar (r.isPathChar_of_mem_write (Language.spelling_simple .ruby) c mem)
  have call : (r.verb.lower ++ " '" ++ r.path .colon ++ "', to: 'c#h'").toList =
      Ruby.routeLine r.verb.lower '\'' ('/' :: r.tail .colon) ", to: 'c#h'".toList := by
    simp [Ruby.routeLine, DeclaredRoute.path, write_eq]
  have named : (Ruby.routeTarget.search ", to: 'c#h'".toList).getD [] = Language.ruby.handler.toList := by
    decide +kernel
  rw [call, Ruby.lineEndpoints_routeLine file n known (by decide) noQuote (by decide) (by rintro c ⟨⟩; decide)]
  apply congrArg (fun e => [e])
  exact endpoint_eq (l := .ruby) r.verb.upper_lower rfl named

theorem Python.scan_declaration : ∃ p,
    Python.routeStep file none n ("@app." ++ r.verb.lower ++ "(\"" ++ r.path .angles ++ "\")").toList = (p, []) ∧
      Python.routeStep file p (n + 1) "def h():".toList = (none, [r.inCode .python file (n + 1)]) := by
  have known : r.verb.lower ∈ Python.decoratorVerbs := by cases r.verb <;> decide
  have noQuote : ∀ c ∈ '/' :: r.tail .angles, isPlainQuote c = false := by
    intro c mem
    exact isPlainQuote_of_isPathChar (r.isPathChar_of_mem_write (Language.spelling_simple .python) c mem)
  have upper : ("@app." ++ r.verb.lower ++ "(\"" ++ r.path .angles ++ "\")").toList =
      Python.decoratorLine "app".toList r.verb.lower '"' ('/' :: r.tail .angles) [')'] := by
    simp [Python.decoratorLine, DeclaredRoute.path, write_eq]
  have methods : Python.decoratorMethods r.verb.lower.toList [')'] = [r.verb.upper.toList] := by
    cases r.verb <;> decide +kernel
  have routed : Python.Line.of (Python.decoratorLine "app".toList r.verb.lower '"' ('/' :: r.tail .angles) [')']) =
      .routed [r.verb.upper.toList] ('/' :: r.tail .angles) := by
    rw [← methods]
    exact Python.of_decoratorLine (.of "app".toList (by decide)) known (by decide) noQuote [')']
  obtain ⟨route, code⟩ :
      ∃ route, Python.Line.of (Python.definitionLine ['h'] "():".toList) = .code (some ['h']) route :=
    Python.of_definitionLine (.of ['h'] (by decide)) (by rintro c ⟨⟩; decide)
  have found : endpoint .python file (n + 1) r.verb.upper.toList ('/' :: r.tail .angles) ['h'] =
      r.inCode .python file (n + 1) := endpoint_eq r.verb.upper_upper rfl rfl
  have lower : Text.trim "def h():".toList = Python.definitionLine ['h'] "():".toList := by decide +kernel
  refine ⟨some ⟨[r.verb.upper], r.path .angles, n⟩, ?_, ?_⟩
  -- the decorator leaves its route pending, the definition takes it
  · rw [Python.routeStep, upper, Python.trim_decoratorLine _ _ _ _ (by decide) (by rintro c ⟨⟩; decide), routed]
    simp [Route.Pairing.annotate, DeclaredRoute.path, write_eq]
  · rw [Python.routeStep, lower, code]
    simp [Route.Pairing.consume, Route.Pairing.fresh, DeclaredRoute.path, write_eq, found]

theorem Java.scan_declaration : ∃ s : Java.State,
    Java.State.step file n {}
          (Java.Line.of (Text.trim ("@" ++ r.verb.title ++ "Mapping(\"" ++ r.path .braces ++ "\")").toList)) =
        (s, []) ∧
      Java.State.step file (n + 1) s (Java.Line.of (Text.trim "public String h() \x7b".toList)) =
        ({}, [r.inCode .java file (n + 1)]) := by
  have known : r.verb.title ∈ Java.mappingKinds := by cases r.verb <;> decide
  have noQuote : '"' ∉ '/' :: r.tail .braces :=
    not_mem_of_isPathChar (r.isPathChar_of_mem_write (Language.spelling_simple .java)) (by decide)
  have upper : ("@" ++ r.verb.title ++ "Mapping(\"" ++ r.path .braces ++ "\")").toList =
      Java.mappingLine r.verb.title ('/' :: r.tail .braces) [')'] := by
    simp [Java.mappingLine, DeclaredRoute.path, write_eq]
  have methods : ∀ args, Java.mappingMethods r.verb.title args = [r.verb.upper] := by
    intro args
    have named : r.verb.title ≠ "Request" := by cases r.verb <;> decide
    rw [Java.mappingMethods, if_neg named, r.verb.upper_title]
  obtain ⟨m, reads, name⟩ : ∃ m, Java.method? (Text.trim "public String h() \x7b".toList) = some m ∧ m.name = ['h'] :=
    Option.map_eq_some_iff.1 (by decide +kernel)
  have method := Java.of_methodLine (by decide +kernel) (by decide +kernel) reads
  have found : endpoint .java file (n + 1) r.verb.upper.toList ('/' :: r.tail .braces) ['h'] =
      r.inCode .java file (n + 1) := endpoint_eq r.verb.upper_upper rfl rfl
  refine ⟨{ pairing := some ⟨[r.verb.upper], r.path .braces, n⟩ }, ?_, ?_⟩
  · rw [upper, Java.trim_mappingLine _ _ (by decide) (by rintro c ⟨⟩; decide), Java.of_mappingLine known noQuote,
      methods]
    simp [Java.State.step, Route.Pairing.annotate, Route.Pairing.fresh, DeclaredRoute.path, write_eq]
  · rw [method, name]
    simp [Java.State.step, Route.Pairing.consume, Route.Pairing.fresh, DeclaredRoute.path, write_eq, found]

theorem CSharp.scan_declaration : ∃ s : Java.State,
    CSharp.step file n {}
          (CSharp.Line.of (Text.trim ("[Http" ++ r.verb.title ++ "(\"" ++ r.path .braces ++ "\")]").toList)) =
        (s, []) ∧
      CSharp.step file (n + 1) s (CSharp.Line.of (Text.trim "public IActionResult h() \x7b".toList)) =
        ({}, [r.inCode .csharp file (n + 1)]) := by
  have known : r.verb.title ∈ CSharp.attributeVerbs := by cases r.verb <;> decide
  have path := r.isPathChar_of_mem_write (Language.spelling_simple .csharp)
  have noQuote : '"' ∉ '/' :: r.tail .braces := not_mem_of_isPathChar path (by decide)
  have noToken : '[' ∉ r.tail .braces := r.tail_no (Language.spelling_simple .csharp) (by decide)
  have upper : ("[Http" ++ r.verb.title ++ "(\"" ++ r.path .braces ++ "\")]").toList =
      CSharp.attributeLine r.verb.title ('/' :: r.tail .braces) ")]".toList := by
    simp [CSharp.attributeLine, DeclaredRoute.path, write_eq]
  -- a dot would be needed for a call, which is looked for before an attribute
  have noDot : '.' ∉ CSharp.attributeLine r.verb.title ('/' :: r.tail .braces) ")]".toList := by
    have inPath : '.' ∉ r.tail .braces := r.tail_no (Language.spelling_simple .csharp) (by decide)
    have inVerb : '.' ∉ r.verb.title.toList := by cases r.verb <;> decide
    simp [CSharp.attributeLine, inPath, inVerb]
  obtain ⟨m, reads, name⟩ :
      ∃ m, CSharp.method? (Text.trim "public IActionResult h() \x7b".toList) = some m ∧ m.name = ['h'] :=
    Option.map_eq_some_iff.1 (by decide +kernel)
  have method := CSharp.of_methodLine (by decide +kernel) (by decide +kernel) (by decide +kernel) (by decide +kernel)
    reads
  have found : endpoint .csharp file (n + 1) r.verb.upper.toList ('/' :: r.tail .braces) ['h'] =
      r.inCode .csharp file (n + 1) := endpoint_eq r.verb.upper_upper rfl rfl
  refine ⟨{ pairing := some ⟨[r.verb.upper], r.path .braces, n⟩ }, ?_, ?_⟩
  · rw [upper, CSharp.trim_attributeLine _ _ (by decide) (by rintro c ⟨⟩; decide),
      CSharp.of_attributeLine known (by simp) noQuote noDot, r.verb.upper_title]
    simp [CSharp.step, Route.Pairing.annotate, Route.Pairing.fresh, DeclaredRoute.path, write_eq]
  · rw [method, name]
    simp [CSharp.step, Route.Pairing.consume, Route.Pairing.fresh, DeclaredRoute.path, write_eq,
      CSharp.methodPath_rooted _ noToken, found]

end Source

section Reading

variable {l : Language} {file : String}

/-- A language that reads each line on its own, and declares a route on one. -/
theorem endpoints_single {f : Nat → List Char → List Endpoint} {line : DeclaredRoute → String}
    (reader : l.endpoints file = Source.eachLine f)
    (shape : ∀ r : DeclaredRoute, l.declaration r.verb (r.path l.spelling) = [line r])
    (each : ∀ r n, f n (line r).toList = [r.inCode l file n]) (rs : List DeclaredRoute) :
    l.endpoints file (program l rs) = (rs.zipIdx 1).map fun (r, n) => r.inCode l file n := by
  have lines : program l rs = Text.unlines (rs.map fun r => (line r).toList) := by
    rw [program]
    simp only [shape, List.map_cons, List.map_nil]
    rw [List.map_eq_flatMap]
  rw [reader, lines]
  apply Source.eachLine_unlines _ each
  intro r
  exact isLine_of_declared l r (line r) (by simp [shape])

/-- A language that reads from a state to the next, and declares a route on two lines. -/
theorem endpoints_pair {σ : Type} {step : σ → Nat → List Char → σ × List Endpoint} {s : σ}
    {upper lower : DeclaredRoute → String} (reader : l.endpoints file = Source.scanLines step s)
    (shape : ∀ r : DeclaredRoute, l.declaration r.verb (r.path l.spelling) = [upper r, lower r])
    (each : ∀ r n, ∃ t, step s n (upper r).toList = (t, []) ∧
      step t (n + 1) (lower r).toList = (s, [r.inCode l file (n + 1)])) (rs : List DeclaredRoute) :
    l.endpoints file (program l rs) = (rs.zipIdx 1).map fun (r, n) => r.inCode l file (2 * n) := by
  have lines : program l rs = Text.unlines (rs.flatMap fun r => [(upper r).toList, (lower r).toList]) := by
    rw [program]
    simp only [shape, List.map_cons, List.map_nil]
  rw [reader, lines]
  apply Source.scanLines_pairs _ each
  intro r t mem
  have declared : ∃ u ∈ l.declaration r.verb (r.path l.spelling), t = u.toList := by
    rw [shape]
    simpa using mem
  obtain ⟨u, known, rfl⟩ := declared
  exact isLine_of_declared l r u known

end Reading

/-- What is found of a program: an endpoint for each declaration, at its last line. -/
theorem endpoints_program (l : Language) (file : String) (rs : List DeclaredRoute) :
    l.endpoints file (program l rs) = (rs.zipIdx 1).map fun (r, n) => r.inCode l file (l.declarationLength * n) := by
  cases l with
  | go =>
    simpa [Language.declarationLength] using
      endpoints_single rfl (fun _ => rfl) (fun r n => Source.Go.lineEndpoints_declaration file n r) rs
  | javascript =>
    simpa [Language.declarationLength] using
      endpoints_single rfl (fun _ => rfl) (fun r n => Source.JavaScript.lineEndpoints_declaration file n r) rs
  | ruby =>
    simpa [Language.declarationLength] using
      endpoints_single rfl (fun _ => rfl) (fun r n => Source.Ruby.lineEndpoints_declaration file n r) rs
  | python => exact endpoints_pair rfl (fun _ => rfl) (fun r n => Source.Python.scan_declaration file n r) rs
  | java => exact endpoints_pair rfl (fun _ => rfl) (fun r n => Source.Java.scan_declaration file n r) rs
  | csharp => exact endpoints_pair rfl (fun _ => rfl) (fun r n => Source.CSharp.scan_declaration file n r) rs

def DeclaredRoute.heading (r : DeclaredRoute) : Document.Heading where
  method := r.verb.upper
  known := r.verb.upper_known
  path := {
    text := Route.write .braces r.segments
    nonempty := by simp [Route.write]
    fits := by
      intro c mem
      have path := r.isPathChar_of_mem_write (Language.spelling_simple .java) c mem
      refine Document.isHeadingChar_iff.2 ⟨isBlank_of_isPathChar path, ?_⟩
      rintro rfl
      exact absurd path (by decide) }

theorem outline_eq (rs : List DeclaredRoute) :
    outline rs = Text.unlines ((rs.map DeclaredRoute.heading).map Document.Heading.line) := by
  rw [outline, List.map_map]
  congr 2
  funext r
  simp [Document.Heading.line, DeclaredRoute.heading, DeclaredRoute.path]

def DeclaredRoute.inDocument (source : String) (r : DeclaredRoute) (line : Nat) : Endpoint :=
  Document.finish (r.heading.endpoint source line)

theorem outlineEndpoints_outline (source : String) (rs : List DeclaredRoute) :
    Document.outlineEndpoints source (outline rs) = (rs.zipIdx 1).map fun (r, n) => r.inDocument source n := by
  rw [outline_eq, Document.outlineEndpoints_headings, List.zipIdx_map, List.map_map]
  rfl

end Drift
