import Drift.Proofs.Detection.Declared
import Drift.Proofs.Source.CSharp
import Drift.Proofs.Source.Go
import Drift.Proofs.Source.Handler
import Drift.Proofs.Source.JavaScript
import Drift.Proofs.Source.Scan
import Drift.Source.Extract

namespace Drift.Source

/-- A call that declares a route: a verb, a path below the root, names in front of the handler, the handler,
and what stands on the line behind the closing parenthesis. -/
structure RouteCall where
  verb : Verb
  path : List Char
  others : List DottedName
  handler : DottedName
  behind : List Char := []
  unquoted : ∀ c ∈ path, isQuote c = false
  onLine : ∀ c ∈ path ++ behind, Text.isLineBreak c = false

inductive CallLanguage where
  | go
  | javascript
  | csharp

namespace CallLanguage

def language : CallLanguage → Language
  | go => .go
  | javascript => .javascript
  | csharp => .csharp

def callee (l : CallLanguage) (v : Verb) : List Char :=
  match l with
  | go => "r.".toList ++ v.upper.toList
  | javascript => "app.".toList ++ v.lower.toList
  | csharp => "app.Map".toList ++ v.title.toList

def quote : CallLanguage → Char
  | go | csharp => '"'
  | javascript => '\''

end CallLanguage

namespace RouteCall

variable (r : RouteCall)

def rest : List Char := listedNames r.others ++ ' ' :: (r.handler.text ++ ')' :: r.behind)

def line (l : CallLanguage) : List Char :=
  l.callee r.verb ++ '(' :: l.quote :: '/' :: (r.path ++ l.quote :: ',' :: r.rest)

def endpoint (l : CallLanguage) (file : String) : Endpoint where
  method := r.verb.upper
  path := String.ofList ('/' :: r.path)
  handler := String.ofList r.handler.text
  file
  line := 1
  language := some l.language

def alone : RouteCall := { r with behind := [], onLine := fun c mem => r.onLine c (by simp at mem; simp [mem]) }

def trimmed : RouteCall :=
  { r with
    behind := Text.trimRightWhile Text.isBlank r.behind
    onLine := by
      obtain ⟨path, behind⟩ := List.forall_mem_append.1 r.onLine
      exact List.forall_mem_append.2 ⟨path, fun c mem => behind c ((Text.trimRightWhile_prefix _ _).subset mem)⟩ }

/-- Taken for further arguments, the text behind the call leaves the handler as it is: it ends with the handler's own
name, or it names none, and then either what stands up to its first comma may stand behind a name, or the argument in
front of the handler is the same. -/
def Harmless : Prop :=
  ∃ first later, splitTopLevel [','] plainBrackets r.behind = first :: later ∧
    (lastNamed? later = some r.handler.text ∨
      lastNamed? later = none ∧
        (Finishes (')' :: Text.trimRightWhile Text.isBlank first) ∨ r.others.getLast? = some r.handler))

theorem harmless_iff {r : RouteCall} {first : List Char} {later : List (List Char)}
    (parts : splitTopLevel [','] plainBrackets r.behind = first :: later) :
    r.Harmless ↔ lastNamed? later = some r.handler.text ∨ lastNamed? later = none ∧
      (Finishes (')' :: Text.trimRightWhile Text.isBlank first) ∨ r.others.getLast? = some r.handler) := by
  refine ⟨fun ⟨f, l, cut, h⟩ => ?_, fun h => ⟨first, later, parts, h⟩⟩
  obtain ⟨rfl, rfl⟩ := List.cons_eq_cons.1 (cut.symm.trans parts)
  exact h

theorem handlerName_rest : handlerName r.rest = r.handler.text ↔ r.Harmless := by
  obtain ⟨first, later, parts⟩ := exists_splitFrom [','] plainBrackets {} r.behind
  rw [harmless_iff parts, handlerName_eq, rest, lastNamed_call r.others r.handler parts]
  cases last : lastNamed? later with
  | some w => simp
  | none =>
    rw [Option.none_or]
    by_cases finishes : Finishes (')' :: Text.trimRightWhile Text.isBlank first)
    case pos => simp [(named_closed r.handler).2 ⟨rfl, finishes⟩, finishes]
    case neg =>
      have lost : named? (' ' :: (r.handler.text ++ ')' :: first)) = none := by
        cases named : named? (' ' :: (r.handler.text ++ ')' :: first)) with
        | none => rfl
        | some w => exact absurd ((named_closed r.handler).1 named).2 finishes
      rw [lost, Option.none_or]
      cases before : r.others.getLast? with
      | none => simp [finishes, DottedName.text]
      | some n =>
        have same : n.text = r.handler.text ↔ n = r.handler := ⟨DottedName.text_injective, congrArg _⟩
        simp [finishes, same]

theorem harmless_alone : r.alone.Harmless := ⟨[], [], rfl, .inr ⟨rfl, .inl .paren⟩⟩

theorem handlerName_callArgs : handlerName (Go.callArgs (',' :: r.rest)) = r.handler.text := by
  have plain : ∀ c ∈ ',' :: (listedNames r.others ++ ' ' :: r.handler.text), c ≠ '(' ∧ c ≠ ')' := by
    have name : ∀ c, isHandlerChar c = true → c ≠ '(' ∧ c ≠ ')' := fun c fits =>
      ⟨Text.ne_of_class fits (by decide), Text.ne_of_class fits (by decide)⟩
    exact List.forall_mem_cons.2 ⟨by decide, forall_arguments (by decide) (by decide) name _ _⟩
  have args : Go.callArgs (',' :: r.rest) = ',' :: (listedNames r.others ++ ' ' :: r.handler.text) := by
    have closed := Go.callArgs_closed plain r.behind
    simpa [rest] using closed
  have front : splitTopLevel [','] plainBrackets ([] ++ ',' :: (listedNames r.others ++ ' ' :: r.handler.text)) =
      [] :: splitTopLevel [','] plainBrackets (listedNames r.others ++ ' ' :: r.handler.text) :=
    splitTopLevel_append (p := []) (by decide) (by decide) (.of_not_mem (by decide) (by decide)) rfl .start _
  rw [List.nil_append] at front
  rw [args, handlerName_eq, front, splitTopLevel_listedNames, ((closed_argument r.handler).cut fun _ fits => fits).1,
    ← List.cons_append, lastNamed_append, lastNamed_cons, named_text]
  rfl

theorem whole_line (l : CallLanguage) : ∀ c ∈ r.line l, Text.isLineBreak c = false := by
  have callee : ∀ c ∈ l.callee r.verb, Text.isLineBreak c = false := by
    obtain ⟨upper, lower, title⟩ := r.verb.isLine
    cases l with
    | go => exact List.forall_mem_append.2 ⟨forall_of_all (by decide), upper⟩
    | javascript => exact List.forall_mem_append.2 ⟨forall_of_all (by decide), lower⟩
    | csharp => exact List.forall_mem_append.2 ⟨forall_of_all (by decide), title⟩
  have quote : Text.isLineBreak l.quote = false := by cases l <;> decide
  have args : ∀ c ∈ listedNames r.others ++ ' ' :: r.handler.text, Text.isLineBreak c = false :=
    forall_arguments (by decide) (by decide) (fun _ fits => Text.isLineBreak_of_not_blank (isBlank_of_isHandlerChar fits)) _ _
  obtain ⟨path, behind⟩ := List.forall_mem_append.1 r.onLine
  have shape : r.line l = l.callee r.verb ++ '(' :: l.quote :: '/' :: (r.path ++ l.quote :: ',' ::
      ((listedNames r.others ++ ' ' :: r.handler.text) ++ ')' :: r.behind)) := by simp [line, rest]
  rw [shape]
  simp only [List.forall_mem_append, List.forall_mem_cons] at args ⊢
  exact ⟨callee, by decide, quote, by decide, path, quote, by decide, args, by decide, behind⟩

theorem line_ne_nil (l : CallLanguage) : r.line l ≠ [] := by simp [line]

theorem endpoint_eq {l : CallLanguage} {file : String} {method : List Char}
    (methods : String.ofList (Text.upper method) = r.verb.upper) (handler : List Char) :
    Source.endpoint l.language file 1 method ('/' :: r.path) handler =
      { r.endpoint l file with handler := String.ofList handler } := by
  rw [Source.endpoint, methods]
  rfl

theorem noQuote_path {c : Char} (quote : isQuote c = true) : c ∉ r.path := fun mem => by
  rw [r.unquoted c mem] at quote
  cases quote

theorem endpoints_go (file : String) : Go.endpoints file (r.line .go) = [r.endpoint .go file] := by
  have known : r.verb.upper ∈ Go.routeVerbs := by cases r.verb <;> decide
  have callee : CallLanguage.callee .go r.verb = ['r'] ++ '.' :: r.verb.upper.toList := rfl
  have call : r.line .go = Go.routeCall ['r'] r.verb.upper r.path (',' :: r.rest) := by
    rw [line, Go.routeCall, callee, List.append_assoc]
    rfl
  rw [Go.endpoints, eachLine_line (r.line_ne_nil .go) (r.whole_line .go), call]
  apply (Go.lineEndpoints_routeCall file 1 (.of ['r'] (by decide)) known (r.noQuote_path rfl) (',' :: r.rest)).trans
  rw [handlerName_callArgs]
  exact congrArg (fun e => [e]) (r.endpoint_eq (l := .go) r.verb.upper_upper _)

theorem trimLeft_rest : Text.trimLeftWhile (· == ',') (',' :: r.rest) = r.rest := by
  rw [rest]
  cases r.others <;> rfl

theorem endpoints_javascript (file : String) : JavaScript.endpoints file (r.line .javascript) =
    [{ r.endpoint .javascript file with handler := String.ofList (handlerName r.rest) }] := by
  have known : r.verb.lower ∈ JavaScript.verbs := by cases r.verb <;> decide
  have callee : CallLanguage.callee .javascript r.verb = "app".toList ++ '.' :: r.verb.lower.toList := rfl
  have call : r.line .javascript = JavaScript.routeCall "app" r.verb.lower '\'' r.path (',' :: r.rest) := by
    rw [line, JavaScript.routeCall, callee, List.append_assoc]
    rfl
  rw [JavaScript.endpoints, eachLine_line (r.line_ne_nil .javascript) (r.whole_line .javascript), call,
    JavaScript.lineEndpoints_routeCall file 1 (by decide) known (by decide) r.unquoted (by decide), r.trimLeft_rest]
  exact congrArg (fun e => [e]) (r.endpoint_eq (l := .javascript) r.verb.upper_lower _)

theorem trim_line : Text.trim (r.line .csharp) = r.trimmed.line .csharp := by
  have shape : ∀ r : RouteCall, r.line .csharp = ("app.Map".toList ++ r.verb.title.toList ++ '(' :: '"' :: '/' ::
      (r.path ++ '"' :: ',' :: (listedNames r.others ++ ' ' :: r.handler.text))) ++ ')' :: r.behind := by
    intro r
    have callee : CallLanguage.callee .csharp r.verb = "app.Map".toList ++ r.verb.title.toList := rfl
    have quote : CallLanguage.quote .csharp = '"' := rfl
    simp only [line, rest, callee, quote, List.append_assoc, List.cons_append]
  rw [shape, shape, Text.trim_append_cons (by rintro _ ⟨⟩; decide) (by decide)]
  rfl

theorem handlerName_trimmed : handlerName r.trimmed.rest = handlerName r.rest := by
  obtain ⟨back, whole, blank⟩ := Text.exists_trimRight r.behind
  have more : r.rest = r.trimmed.rest ++ back := by
    rw [rest, rest, whole]
    simp [trimmed]
  rw [more, handlerName_append_blank blank]

theorem endpoints_csharp (file : String) : CSharp.endpoints file (r.line .csharp) =
    [{ r.endpoint .csharp file with handler := String.ofList (handlerName r.rest) }] := by
  have known : r.verb.title ∈ CSharp.minimalVerbs := by cases r.verb <;> decide
  have noQuote : '"' ∉ '/' :: r.path := by simpa using r.noQuote_path rfl
  have call : ∀ r : RouteCall, r.line .csharp = CSharp.mapCall "app".toList r.verb.title ('/' :: r.path) (',' :: r.rest) := by
    intro r
    have callee : CallLanguage.callee .csharp r.verb = "app".toList ++ (".Map".toList ++ r.verb.title.toList) := rfl
    rw [line, CSharp.mapCall, callee, List.append_assoc, List.append_assoc]
    rfl
  have read : CSharp.Line.of (CSharp.mapCall "app".toList r.verb.title ('/' :: r.path) (',' :: r.trimmed.rest)) =
      .minimal r.verb.title.toList ('/' :: r.path) (',' :: r.trimmed.rest) :=
    CSharp.of_mapCall (.of "app".toList (by decide)) known noQuote (',' :: r.trimmed.rest)
  rw [CSharp.endpoints, scanLines, Text.numberedLines_line (r.line_ne_nil .csharp) (r.whole_line .csharp), scan, scan, List.append_nil,
    r.trim_line, call]
  have step : (CSharp.step file 1 {} (CSharp.Line.of (CSharp.mapCall "app".toList r.verb.title ('/' :: r.path) (',' :: r.trimmed.rest)))).2 =
      [Source.endpoint .csharp file 1 r.verb.title.toList ('/' :: r.path) (handlerName r.rest)] := by
    rw [read, CSharp.step, trimLeft_rest, handlerName_trimmed]
  exact step.trans (congrArg (fun e => [e]) (r.endpoint_eq (l := .csharp) r.verb.upper_title _))

theorem renamed_iff (l : CallLanguage) (file : String) :
    [{ r.endpoint l file with handler := String.ofList (handlerName r.rest) }] = [r.endpoint l file] ↔ r.Harmless := by
  rw [← r.handlerName_rest, List.singleton_inj]
  constructor
  · exact fun same => String.ofList_inj.1 (congrArg Endpoint.handler same)
  · intro same
    rw [same]
    rfl

theorem endpoints_eq_iff (l : CallLanguage) (file : String) :
    l.language.endpoints file (r.line l) = [r.endpoint l file] ↔ l = .go ∨ r.Harmless := by
  cases l with
  | go => exact iff_of_true (r.endpoints_go file) (.inl rfl)
  | javascript =>
    have read : CallLanguage.javascript.language.endpoints file (r.line .javascript) = _ := r.endpoints_javascript file
    rw [read, renamed_iff, or_iff_right CallLanguage.noConfusion]
  | csharp =>
    have read : CallLanguage.csharp.language.endpoints file (r.line .csharp) = _ := r.endpoints_csharp file
    rw [read, renamed_iff, or_iff_right CallLanguage.noConfusion]

/-- The handler of a route call is its last argument if nothing stands behind the call, and in Go, where the arguments
end with the call, in any case; elsewhere exactly if what stands behind the call is harmless. -/
theorem handler_of_call (r : RouteCall) (l : CallLanguage) (file : String) :
    l.language.endpoints file (r.alone.line l) = [r.endpoint l file] ∧
      (l.language.endpoints file (r.line l) = [r.endpoint l file] ↔ l = .go ∨ r.Harmless) :=
  ⟨(r.alone.endpoints_eq_iff l file).2 (.inr r.harmless_alone), r.endpoints_eq_iff l file⟩

def commentedCall : RouteCall where
  verb := .get
  path := "users".toList
  others := [⟨'a', "uth.check".toList, by decide, forall_of_all (by decide)⟩]
  handler := ⟨'l', "istUsers".toList, by decide, forall_of_all (by decide)⟩
  behind := "; // public, cached".toList
  unquoted := forall_of_all (by decide)
  onLine := forall_of_all (by decide)

theorem handler_of_call_commented :
    Language.javascript.endpoints "a.js" "app.get('/users', auth.check, listUsers)".toList =
      [{ method := "GET", path := "/users", handler := "listUsers", file := "a.js", line := 1, language := some .javascript }] ∧
    Language.javascript.endpoints "a.js" "app.get('/users', auth.check, listUsers); // public, cached".toList ≠
      [{ method := "GET", path := "/users", handler := "listUsers", file := "a.js", line := 1, language := some .javascript }] ∧
    Language.go.endpoints "a.go" "r.GET(\"/users\", auth.check, listUsers); // public, cached".toList =
      [{ method := "GET", path := "/users", handler := "listUsers", file := "a.go", line := 1, language := some .go }] := by
  obtain ⟨alone, harmless⟩ := handler_of_call commentedCall .javascript "a.js"
  obtain ⟨-, inGo⟩ := handler_of_call commentedCall .go "a.go"
  have renamed : ¬ commentedCall.Harmless := by
    have parts : splitTopLevel [','] plainBrackets commentedCall.behind = ["; // public".toList, " cached".toList] := by
      decide
    have last : lastNamed? [" cached".toList] = some "cached".toList := by decide
    rw [harmless_iff parts, last]
    rintro (same | ⟨none, -⟩)
    · exact absurd same (by decide)
    · cases none
  have line : commentedCall.line .javascript =
      "app.get('/users', auth.check, listUsers); // public, cached".toList := by decide +kernel
  have lineAlone : commentedCall.alone.line .javascript = "app.get('/users', auth.check, listUsers)".toList := by
    decide +kernel
  have lineGo : commentedCall.line .go = "r.GET(\"/users\", auth.check, listUsers); // public, cached".toList := by
    decide +kernel
  rw [← line, ← lineAlone, ← lineGo]
  exact ⟨alone, fun same => (harmless.1 same).elim CallLanguage.noConfusion renamed, inGo.2 (.inl rfl)⟩

end RouteCall

end Drift.Source
