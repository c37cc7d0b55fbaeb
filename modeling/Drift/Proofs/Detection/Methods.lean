import Drift.Proofs.Recognizer.Readings
import Drift.Proofs.Source.CSharp
import Drift.Proofs.Source.Java
import Drift.Proofs.Source.Scan
import Drift.Source.Extract

namespace Drift

structure Endpoint.StandsAt (e : Endpoint) (l : Language) (file : String) (n : Nat) : Prop where
  language : e.language = some l
  file : e.file = file
  line : e.line = n

namespace Source

open Recognizer

def IsMethod (w : List Char) : Prop := String.ofList (Text.upper w) ∈ httpMethods

instance (w : List Char) : Decidable (IsMethod w) := inferInstanceAs (Decidable (_ ∈ _))

def AllMethods (ws : List String) : Prop := ∀ w ∈ ws, IsMethod w.toList

instance (ws : List String) : Decidable (AllMethods ws) := inferInstanceAs (Decidable (∀ w ∈ ws, _))

theorem endpoint_standsAt (l : Language) (file : String) (n : Nat) (method path handler : List Char) :
    (endpoint l file n method path handler).StandsAt l file n := ⟨rfl, rfl, rfl⟩

def spellings : List String :=
  httpMethods ++ ["get", "post", "put", "delete", "patch", "options", "head"] ++
    ["Get", "Post", "Put", "Delete", "Patch", "Options", "Head"]

theorem allMethods_spellings : AllMethods spellings := by decide +kernel

theorem allMethods_of_spelled {ws : List String} (spelled : ∀ w ∈ ws, w ∈ spellings) : AllMethods ws :=
  fun w mem => allMethods_spellings w (spelled w mem)

theorem allMethods_httpMethods : AllMethods httpMethods := allMethods_of_spelled (by decide)

theorem isMethod_get : IsMethod "GET".toList := allMethods_spellings "GET" (by decide)

theorem IsMethod.upper {w : List Char} (known : IsMethod w) : IsMethod (Text.upper w) := by
  have again := allMethods_httpMethods _ known
  rwa [String.toList_ofList] at again

theorem allMethods_upper {w : String} (spelled : w ∈ spellings) :
    AllMethods [String.ofList (Text.upper w.toList)] := by
  intro m mem
  rw [List.mem_singleton.1 mem, String.toList_ofList]
  exact (allMethods_spellings w spelled).upper

theorem isMethod_of_mem_knownMethods {ws : List (List Char)} {w : List Char} (mem : w ∈ knownMethods ws) :
    IsMethod w := by
  rw [knownMethods, List.mem_filter, List.contains_iff_mem] at mem
  have known := allMethods_httpMethods _ mem.2
  rwa [String.toList_ofList] at known

theorem isMethod_of_mem_named (words : Option (List (List Char))) {w : List Char}
    (mem : w ∈ if ((words.map knownMethods).getD []).isEmpty then ["GET".toList]
      else (words.map knownMethods).getD []) : IsMethod w := by
  split at mem
  · rw [List.mem_singleton.1 mem]
    exact isMethod_get
  · cases words with
    | none => cases mem
    | some ws => exact isMethod_of_mem_knownMethods mem

theorem values_verb {ws : List String} (spelled : ∀ w ∈ ws, w ∈ spellings) :
    (oneOf ws).Values fun w => IsMethod w.toList :=
  (Values.oneOf ws).mono fun _ w _ mem => allMethods_of_spelled spelled w mem

/-- What is emitted for a line: endpoints that stand on it, with methods that documentation can name unless
`Odd` holds of the line. -/
def Declares (l : Language) (file : String) (Odd : List Char → Prop) (n : Nat) (line : List Char) (e : Endpoint) :
    Prop :=
  e.StandsAt l file n ∧ (e.method ∉ httpMethods ↔ Odd line)

theorem declares_endpoint {l : Language} {file : String} {n : Nat} {line method : List Char} {Odd : List Char → Prop}
    (odd : ¬ IsMethod method ↔ Odd line) (path handler : List Char) :
    Declares l file Odd n line (endpoint l file n method path handler) :=
  ⟨endpoint_standsAt .., odd⟩

def Never (_ : List Char) : Prop := False

theorem declares_known {l : Language} {file : String} {n : Nat} {line method : List Char} (known : IsMethod method)
    (path handler : List Char) : Declares l file Never n line (endpoint l file n method path handler) :=
  declares_endpoint (iff_of_false (not_not_intro known) id) path handler

namespace Go

theorem frameworkRoute_verb : frameworkRoute.Values fun r => IsMethod r.1 := by
  iterate 3
    apply Values.after
    intro _
  apply Values.bind (values_verb (by decide))
  intro verb known
  repeat
    apply Values.after
    intro _
  exact Values.pure known

def RegistersUnknown (line : List Char) : Prop :=
  frameworkRoute.search line = none ∧ ∃ pattern args, handleRoute.search line = some (pattern, args) ∧
    (splitPattern pattern).2.head? = some '/' ∧ (splitPattern pattern).1 ≠ [] ∧ ¬ IsMethod (splitPattern pattern).1

theorem isMethod_of_mem_chainedMethods {rest w : List Char} (mem : w ∈ chainedMethods rest) : IsMethod w := by
  apply isMethod_of_mem_named ((methodsCall.search rest).map doubleQuoted.findAll)
  rwa [Option.map_map]

theorem lineEndpoints_declares {file : String} (n : Nat) (line : List Char) :
    ∀ e ∈ lineEndpoints file n line, Declares .go file RegistersUnknown n line e := by
  intro e mem
  rw [lineEndpoints] at mem
  cases framework : frameworkRoute.search line with
  | some route =>
    obtain ⟨verb, path, args⟩ := route
    rw [framework] at mem
    rw [List.mem_singleton.1 mem]
    have known : IsMethod verb := frameworkRoute_verb.of_search framework
    exact declares_endpoint (iff_of_false (not_not_intro known) fun odd => by simp [odd.1] at framework) _ _
  | none =>
    cases handle : handleRoute.search line with
    | none =>
      rw [framework, handle] at mem
      cases mem
    | some route =>
      obtain ⟨pattern, args⟩ := route
      simp only [framework, handle] at mem
      split at mem
      · rename_i rooted
        obtain ⟨m, named, rfl⟩ := List.mem_map.1 mem
        apply declares_endpoint
        -- the only pattern of the line tells whether its method is the one in front of the path
        have odd : RegistersUnknown line ↔ (splitPattern pattern).1 ≠ [] ∧ ¬ IsMethod (splitPattern pattern).1 := by
          simp [RegistersUnknown, framework, handle, rooted]
        rw [odd]
        by_cases bare : (splitPattern pattern).1 = []
        · simp only [bare, List.isEmpty_nil, if_true] at named
          simp [bare, isMethod_of_mem_chainedMethods named]
        · have wordy : (splitPattern pattern).1.isEmpty = false := by simpa using bare
          simp only [wordy, Bool.false_eq_true, if_false, List.mem_singleton] at named
          subst named
          simp [bare]
      · cases mem

theorem lineEndpoints_of_registersUnknown (file : String) (n : Nat) {line : List Char} (odd : RegistersUnknown line) :
    ∃ e ∈ lineEndpoints file n line, e.method ∉ httpMethods := by
  obtain ⟨framework, pattern, args, handle, rooted, wordy, unknown⟩ := odd
  have wordy : (splitPattern pattern).1.isEmpty = false := by simpa using wordy
  refine ⟨endpoint .go file n (splitPattern pattern).1 (splitPattern pattern).2 (handlerName (callArgs args)),
    ?_, unknown⟩
  simp [lineEndpoints, framework, handle, rooted, wordy]

theorem emits (file : String) :
    Emits (fun (s : Unit) n line => (s, lineEndpoints file n line)) (fun _ => True)
      (Declares .go file RegistersUnknown) :=
  .of_eachLine lineEndpoints_declares

end Go

namespace JavaScript

theorem route_verb : route.Values fun r => IsMethod r.1 := by
  iterate 3
    apply Values.after
    intro _
  apply Values.bind (values_verb (by decide))
  intro verb known
  repeat
    apply Values.after
    intro _
  exact Values.pure known

theorem emits (file : String) :
    Emits (fun (s : Unit) n line => (s, lineEndpoints file n line)) (fun _ => True)
      (Declares .javascript file Never) := by
  apply Emits.of_eachLine
  intro n line e mem
  rw [lineEndpoints] at mem
  cases found : route.search line with
  | none =>
    rw [found] at mem
    cases mem
  | some r =>
    rw [found] at mem
    rw [List.mem_singleton.1 mem]
    exact declares_known (route_verb.of_search found) _ _

end JavaScript

namespace Ruby

theorem verbRoute_verb : verbRoute.Values fun r => IsMethod r.1 := by
  apply Values.bind (values_verb (by decide))
  intro verb known
  repeat
    apply Values.after
    intro _
  exact Values.pure known

theorem isMethod_of_mem_resourceActions {a : String × String × Bool} (mem : a ∈ resourceActions) :
    IsMethod a.2.1.toList := by
  have spelled : ∀ a ∈ resourceActions, a.2.1 ∈ spellings := by decide
  exact allMethods_spellings _ (spelled a mem)

theorem emits (file : String) :
    Emits (fun (s : Unit) n line => (s, lineEndpoints file n line)) (fun _ => True)
      (Declares .ruby file Never) := by
  apply Emits.of_eachLine
  intro n line e mem
  rw [lineEndpoints] at mem
  cases resource : resources.atStart (Text.trim line) with
  | some r =>
    simp only [resource, resourceEndpoints, List.mem_map] at mem
    obtain ⟨a, routed, rfl⟩ := mem
    exact declares_known (isMethod_of_mem_resourceActions (List.mem_filter.1 routed).1) _ _
  | none =>
    cases verb : verbRoute.atStart (Text.trim line) with
    | none =>
      simp only [resource, verb] at mem
      cases mem
    | some r =>
      simp only [resource, verb] at mem
      rw [List.mem_singleton.1 mem]
      exact declares_known (verbRoute_verb.of_atStart verb) _ _

end Ruby

def Awaits (p : Route.Pairing) : Prop := ∀ pending ∈ p, AllMethods pending.methods

theorem awaits_fresh : Awaits Route.Pairing.fresh := by
  intro pending waits
  cases waits

theorem Awaits.annotate {p : Route.Pairing} {methods : List String} (waits : Awaits p) (known : AllMethods methods)
    (path : Option String) (line : Int) : Awaits (p.annotate methods path line) := by
  intro pending annotated
  cases p with
  | none =>
    cases annotated
    exact known
  | some current =>
    have before : AllMethods current.methods := waits current rfl
    rw [Route.Pairing.annotate] at annotated
    split at annotated
    · cases annotated
      -- two annotations of one declaration: the methods are those of either
      change AllMethods (if methods.isEmpty then current.methods else methods)
      split
      · exact before
      · exact known
    · cases annotated
      exact known

theorem declares_pending {l : Language} {file : String} {n : Nat} {line fn : List Char} {methods : List String}
    (known : AllMethods methods) (path : List Char) {e : Endpoint}
    (mem : e ∈ methods.map fun m => endpoint l file n m.toList path fn) : Declares l file Never n line e := by
  obtain ⟨m, named, rfl⟩ := List.mem_map.1 mem
  exact declares_known (known m named) path fn

namespace Python

theorem decorator_verb : decorator.Values fun r => ∃ v ∈ decoratorVerbs, r.1 = v.toList := by
  iterate 5
    apply Values.after
    intro _
  apply Values.bind (Values.oneOf decoratorVerbs)
  intro verb mem
  repeat
    apply Values.after
    intro _
  exact Values.pure ⟨verb, mem, rfl⟩

theorem isMethod_of_mem_decoratorMethods {verb args w : List Char} (read : ∃ v ∈ decoratorVerbs, verb = v.toList)
    (mem : w ∈ decoratorMethods verb args) : IsMethod w := by
  have spelled : ∀ v ∈ decoratorVerbs, v.toList ≠ "route".toList ∧ v.toList ≠ "api_route".toList → v ∈ spellings := by
    decide
  obtain ⟨v, known, rfl⟩ := read
  rw [decoratorMethods] at mem
  split at mem
  · rename_i verbal
    rw [List.mem_singleton.1 mem]
    exact (allMethods_spellings v (spelled v known verbal)).upper
  · apply isMethod_of_mem_named ((methodsArgument.search args).map quotedWord.findAll)
    rwa [Option.map_map]

def Line.Known : Line → Prop
  | .routed methods _ => AllMethods (methods.map String.ofList)
  | .code _ _ => True

theorem Line.of_known (stripped : List Char) : (Line.of stripped).Known := by
  rw [Line.of]
  cases decorated : decorator.atStart stripped with
  | none => exact trivial
  | some r =>
    obtain ⟨verb, path, args⟩ := r
    intro m mem
    obtain ⟨w, named, rfl⟩ := List.mem_map.1 mem
    rw [String.toList_ofList]
    exact isMethod_of_mem_decoratorMethods (decorator_verb.of_atStart decorated) named

theorem emits (file : String) : Emits (routeStep file) Awaits (Declares .python file Never) := by
  constructor
  case keeps =>
    intro p n line waits
    have known := Line.of_known (Text.trim line)
    rw [routeStep]
    generalize Line.of (Text.trim line) = read at known
    cases read with
    | routed methods path => exact waits.annotate known _ _
    | code defined route =>
      cases p with
      | none => exact waits
      | some pending =>
        cases defined with
        | none => exact waits
        | some fn => exact awaits_fresh
  case emits =>
    intro p n line waits e mem
    rw [routeStep] at mem
    cases read : Line.of (Text.trim line) with
    | routed methods path =>
      rw [read] at mem
      cases mem
    | code defined route =>
      cases p with
      | none =>
        simp only [read, Route.Pairing.consume, List.mem_map] at mem
        obtain ⟨r, -, rfl⟩ := mem
        exact declares_known isMethod_get _ _
      | some pending =>
        cases defined with
        | none =>
          rw [read] at mem
          cases mem
        | some fn =>
          simp only [read, Route.Pairing.consume] at mem
          exact declares_pending (waits pending rfl) _ mem

end Python

namespace Java

theorem mapping_kind : mapping.Values fun r => r.1 ∈ mappingKinds := by
  apply Values.after
  intro _
  apply Values.bind (Values.oneOf mappingKinds)
  intro kind mem
  repeat
    apply Values.after
    intro _
  exact Values.pure mem

theorem requestMethod_known : requestMethod.Values fun w => IsMethod w.toList := by
  apply Values.after
  intro _
  exact values_verb (by decide)

theorem allMethods_mappingMethods {kind : String} (mem : kind ∈ mappingKinds) (args : List Char) :
    AllMethods (mappingMethods kind args) := by
  have spelled : ∀ k ∈ mappingKinds, k ≠ "Request" → k ∈ spellings := by decide
  rw [mappingMethods]
  split
  · dsimp only
    split
    · exact allMethods_of_spelled (by decide)
    · exact fun m found => requestMethod_known.of_mem_findAll found
  · rename_i verbal
    exact allMethods_upper (spelled kind mem verbal)

def Line.Known : Line → Prop
  | .mapping methods _ => AllMethods methods
  | _ => True

theorem Line.of_known (stripped : List Char) : (Line.of stripped).Known := by
  rw [Line.of]
  cases annotated : Java.mapping.atStart stripped with
  | some r =>
    obtain ⟨kind, args⟩ := r
    exact allMethods_mappingMethods (mapping_kind.of_atStart annotated) args
  | none =>
    dsimp only
    split
    · exact trivial
    · split <;> exact trivial

theorem awaits_step {file : String} {n : Nat} {s : State} {line : Line} (waits : Awaits s.pairing)
    (known : line.Known) : Awaits (State.step file n s line).1.pairing := by
  cases line with
  | mapping methods path => exact waits.annotate known _ _
  | type => exact awaits_fresh
  | method fn =>
    cases waiting : s.pairing with
    | none =>
      simp only [State.step, waiting, Route.Pairing.consume]
      exact awaits_fresh
    | some pending =>
      simp only [State.step, waiting, Route.Pairing.consume]
      exact awaits_fresh
  | other => exact waits

theorem step_declares {file : String} {n : Nat} {s : State} {line : Line} (text : List Char)
    (waits : Awaits s.pairing) : ∀ e ∈ (State.step file n s line).2, Declares .java file Never n text e := by
  intro e mem
  cases line with
  | method fn =>
    cases waiting : s.pairing with
    | none => simp [State.step, waiting, Route.Pairing.consume] at mem
    | some pending =>
      simp only [State.step, waiting, Route.Pairing.consume] at mem
      exact declares_pending (waits pending waiting) _ mem
  | _ => cases mem

theorem emits (file : String) :
    Emits (fun s n line => State.step file n s (Line.of (Text.trim line))) (fun s => Awaits s.pairing)
      (Declares .java file Never) :=
  ⟨fun _ _ line waits => awaits_step waits (Line.of_known (Text.trim line)),
    fun _ _ line waits => step_declares line waits⟩

end Java

namespace CSharp

theorem minimalRoute_verb : minimalRoute.Values fun r => IsMethod r.1 := by
  iterate 3
    apply Values.after
    intro _
  apply Values.bind (values_verb (by decide))
  intro verb known
  repeat
    apply Values.after
    intro _
  exact Values.pure known

instance : Forward template := Forward.bind _ _

theorem httpAttribute_verb : httpAttribute.Values fun r => ∃ v ∈ attributeVerbs, r.1 = v.toList := by
  iterate 3
    apply Values.after
    intro _
  apply Values.bind (Values.oneOf attributeVerbs)
  intro verb mem
  repeat
    apply Values.after
    intro _
  exact Values.pure ⟨verb, mem, rfl⟩

theorem allMethods_attribute? {stripped : List Char} {methods : List String} {path : Option (List Char)}
    (annotated : attribute? stripped = some (methods, path)) : AllMethods methods := by
  have spelled : ∀ v ∈ attributeVerbs, v ∈ spellings := by decide
  rw [attribute?] at annotated
  cases found : httpAttribute.search stripped with
  | some r =>
    rw [found] at annotated
    cases annotated
    obtain ⟨v, mem, read⟩ := httpAttribute_verb.of_search found
    rw [read]
    exact allMethods_upper (spelled v mem)
  | none =>
    rw [found] at annotated
    cases route : routeAttribute.search stripped with
    | some template =>
      rw [route] at annotated
      cases annotated
      intro m mem
      cases mem
    | none =>
      rw [route] at annotated
      cases annotated

def Line.Known : Line → Prop
  | .minimal verb _ _ => IsMethod verb
  | .attribute methods _ => AllMethods methods
  | _ => True

theorem Line.of_known (stripped : List Char) : (Line.of stripped).Known := by
  rw [Line.of]
  cases route : minimalRoute.search stripped with
  | some r => exact minimalRoute_verb.of_search route
  | none =>
    cases annotated : attribute? stripped with
    | some a => exact allMethods_attribute? annotated
    | none =>
      dsimp only
      split
      · exact trivial
      · split <;> exact trivial

theorem awaits_step {file : String} {n : Nat} {s : Java.State} {line : Line} (waits : Awaits s.pairing)
    (known : line.Known) : Awaits (step file n s line).1.pairing := by
  match line, known with
  | .attribute methods path, known => exact waits.annotate known _ _
  | .type name, _ => exact awaits_fresh
  | .method fn, _ =>
    cases waiting : s.pairing with
    | none =>
      simp only [step, waiting, Route.Pairing.consume]
      exact awaits_fresh
    | some pending =>
      simp only [step, waiting, Route.Pairing.consume]
      exact awaits_fresh
  | .minimal .., _ => exact waits
  | .other, _ => exact waits

theorem step_declares {file : String} {n : Nat} {s : Java.State} {line : Line} (text : List Char)
    (waits : Awaits s.pairing) (known : line.Known) :
    ∀ e ∈ (step file n s line).2, Declares .csharp file Never n text e := by
  intro e mem
  cases line with
  | minimal verb path args =>
    rw [List.mem_singleton.1 mem]
    exact declares_known known _ _
  | method fn =>
    cases waiting : s.pairing with
    | none => simp [step, waiting, Route.Pairing.consume] at mem
    | some pending =>
      simp only [step, waiting, Route.Pairing.consume] at mem
      exact declares_pending (waits pending waiting) _ mem
  | _ => cases mem

theorem emits (file : String) :
    Emits (fun s n line => step file n s (Line.of (Text.trim line))) (fun s => Awaits s.pairing)
      (Declares .csharp file Never) :=
  ⟨fun _ _ line waits => awaits_step waits (Line.of_known (Text.trim line)),
    fun _ _ line waits => step_declares line waits (Line.of_known (Text.trim line))⟩

end CSharp

end Source

namespace Language

open Source

def OddLine : Language → List Char → Prop
  | .go => Go.RegistersUnknown
  | _ => Never

theorem oddLine_iff {l : Language} {line : List Char} : l.OddLine line ↔ l = .go ∧ Go.RegistersUnknown line := by
  cases l <;> simp [OddLine, Never]

/-- In each language the endpoints are those of a run over the numbered lines. -/
theorem endpoints_emitted (l : Language) (file : String) (text : List Char) :
    ∃ (σ : Type) (step : σ → Nat → List Char → σ × List Endpoint) (Inv : σ → Prop) (s : σ),
      Emits step Inv (Declares l file l.OddLine) ∧ Inv s ∧
        l.endpoints file text = scan step s (Text.numberedLines text) := by
  cases l with
  | go => exact ⟨Unit, _, _, (), Go.emits file, trivial, eachLine_eq_scanLines _ text⟩
  | python => exact ⟨_, _, _, _, Python.emits file, awaits_fresh, rfl⟩
  | javascript => exact ⟨Unit, _, _, (), JavaScript.emits file, trivial, eachLine_eq_scanLines _ text⟩
  | java => exact ⟨_, _, _, _, Java.emits file, awaits_fresh, rfl⟩
  | csharp => exact ⟨_, _, _, _, CSharp.emits file, awaits_fresh, rfl⟩
  | ruby => exact ⟨Unit, _, _, (), Ruby.emits file, trivial, eachLine_eq_scanLines _ text⟩

theorem declares_of_mem_endpoints {l : Language} {file : String} {text : List Char} {e : Endpoint}
    (mem : e ∈ l.endpoints file text) :
    ∃ n line, (n, line) ∈ Text.numberedLines text ∧ Declares l file l.OddLine n line e := by
  obtain ⟨σ, step, Inv, s, emits, start, run⟩ := l.endpoints_emitted file text
  rw [run] at mem
  exact emits.mem_scan start mem

theorem endpoints_pairwise (l : Language) (file : String) (text : List Char) :
    (l.endpoints file text).Pairwise (·.line ≤ ·.line) := by
  obtain ⟨σ, step, Inv, s, emits, start, run⟩ := l.endpoints_emitted file text
  rw [run]
  apply emits.scan_pairwise _ start (Text.numberedLines_increasing text)
  intro n line e m line' e' below here there
  rw [here.1.line, there.1.line]
  exact Int.ofNat_le.2 below

theorem exists_odd_of_oddLine {l : Language} {text line : List Char} (file : String) (mem : line ∈ Text.lines text)
    (odd : l.OddLine line) : ∃ e ∈ l.endpoints file text, e.method ∉ httpMethods := by
  obtain ⟨rfl, registers⟩ := oddLine_iff.1 odd
  obtain ⟨k, bound, rfl⟩ := List.mem_iff_getElem.1 mem
  obtain ⟨e, emitted, unknown⟩ := Go.lineEndpoints_of_registersUnknown file (k + 1) registers
  have numbered : (k + 1, (Text.lines text)[k]) ∈ Text.numberedLines text :=
    Text.mem_numberedLines_iff.2 ⟨by omega, by simp [bound]⟩
  exact ⟨e, List.mem_flatMap.2 ⟨_, numbered, emitted⟩, unknown⟩

/-- Endpoints have the file, the language and a line of the source, in the order of the lines. Documentation can
name their methods, except on the lines of a Go file that register a pattern with an unknown word in front. -/
theorem endpoints_comparable (l : Language) (file : String) (text : List Char) :
    (∀ e ∈ l.endpoints file text,
      e.language = some l ∧ e.file = file ∧ 1 ≤ e.line ∧ e.line ≤ (Text.lines text).length) ∧
    (l.endpoints file text).Pairwise (·.line ≤ ·.line) ∧
    (∀ e ∈ l.endpoints file text, e.method ∉ httpMethods ↔
      l = .go ∧ ∃ (n : Nat) (line : List Char),
        e.line = n ∧ (n, line) ∈ Text.numberedLines text ∧ Go.RegistersUnknown line) ∧
    ((∃ e ∈ l.endpoints file text, e.method ∉ httpMethods) ↔
      l = .go ∧ ∃ line ∈ Text.lines text, Go.RegistersUnknown line) := by
  refine ⟨?_, l.endpoints_pairwise file text, ?_, ?_, ?_⟩
  · intro e mem
    obtain ⟨n, line, numbered, stands, -⟩ := declares_of_mem_endpoints mem
    obtain ⟨positive, there⟩ := Text.mem_numberedLines_iff.1 numbered
    have below := (List.getElem?_eq_some_iff.1 there).1
    refine ⟨stands.language, stands.file, ?_, ?_⟩ <;> rw [stands.line] <;> omega
  · intro e mem
    obtain ⟨n, line, numbered, stands, odd⟩ := declares_of_mem_endpoints mem
    rw [odd, oddLine_iff]
    constructor
    · rintro ⟨isGo, registers⟩
      exact ⟨isGo, n, line, stands.line, numbered, registers⟩
    · rintro ⟨isGo, m, line', same, numbered', registers⟩
      -- a number stands for one line only
      obtain rfl : n = m := Int.ofNat_inj.1 (stands.line.symm.trans same)
      have first := (Text.mem_numberedLines_iff.1 numbered).2
      rw [(Text.mem_numberedLines_iff.1 numbered').2] at first
      cases first
      exact ⟨isGo, registers⟩
  · rintro ⟨e, mem, unknown⟩
    obtain ⟨n, line, numbered, stands, odd⟩ := declares_of_mem_endpoints mem
    obtain ⟨isGo, registers⟩ := oddLine_iff.1 (odd.1 unknown)
    have there := (Text.mem_numberedLines_iff.1 numbered).2
    exact ⟨isGo, line, List.mem_of_getElem? there, registers⟩
  · rintro ⟨isGo, line, mem, registers⟩
    exact exists_odd_of_oddLine file mem (oddLine_iff.2 ⟨isGo, registers⟩)

end Language

example :
    (Language.go.endpoints "a.go" "mux.HandleFunc(\"GET  /users\", h)".toList).map (·.method) = ["GET "] := by
  decide +kernel

end Drift
