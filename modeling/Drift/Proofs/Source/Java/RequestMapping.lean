import Drift.Proofs.Document.Outline
import Drift.Proofs.Recognizer.Found
import Drift.Proofs.Source.Java
import Drift.Proofs.Source.Java.Routing
import Drift.Proofs.Source.Parts

namespace Drift.Source.Java

open Recognizer

structure RequestMapping where
  key : String
  named : key ∈ ["value", "path"]
  path : List Char
  noQuote : '"' ∉ path
  whole : ∀ c ∈ path, Text.isLineBreak c = false
  methods : List String
  filled : methods ≠ []
  known : ∀ m ∈ methods, m ∈ httpMethods

variable (r : RequestMapping)

def methodName : String → List Char := qualify "RequestMethod."

def assigned (key : String) (opening : Char) (value : List Char) (closing : Char) : List Char :=
  key.toList ++ (" = ".toList ++ opening :: (value ++ [closing]))

namespace RequestMapping

def pathText : List Char := assigned r.key '"' r.path '"'

def methodText : List Char := assigned "method" '{' (Text.joinWith ", ".toList (r.methods.map methodName)) '}'

end RequestMapping

def arguments (first second : List Char) : List Char := first ++ (", ".toList ++ (second ++ [')']))

def requestLine (first second : List Char) : List Char :=
  '@' :: ("Request".toList ++ ("Mapping".toList ++ '(' :: arguments first second))

namespace RequestMapping

def pathFirst : List Char := requestLine r.pathText r.methodText

def methodsFirst : List Char := requestLine r.methodText r.pathText

end RequestMapping

theorem requestMethod_qualified : requestMethod = qualified "RequestMethod." httpMethods := rfl

def Sign (x : Char) : Prop := Separates "RequestMethod." httpMethods x

instance (x : Char) : Decidable (Sign x) := inferInstanceAs (Decidable (Separates _ _ x))

theorem findAll_sign {x : Char} (sign : Sign x) (u t : List Char) :
    requestMethod.findAll (u ++ x :: t) = requestMethod.findAll u ++ requestMethod.findAll t := by
  rw [requestMethod_qualified]
  exact findAll_append_cons (by decide) Document.httpMethods_apart sign u t

theorem findAll_methodNames {methods : List String} (known : ∀ m ∈ methods, m ∈ httpMethods) :
    requestMethod.findAll (Text.joinWith ", ".toList (methods.map methodName)) = methods := by
  have signs : ∀ x ∈ ", ".toList, Sign x := forall_of_all (by decide +kernel)
  rw [requestMethod_qualified]
  exact findAll_joinWith (by decide) Document.httpMethods_apart signs known

theorem findAll_assigned {key : String} (known : key ∈ ["value", "path", "method"]) {opening closing : Char}
    (opens : Sign opening) (closes : Sign closing) (value t : List Char) :
    requestMethod.findAll (assigned key opening value closing ++ t) =
      requestMethod.findAll value ++ requestMethod.findAll t := by
  have shape : assigned key opening value closing ++ t =
      (key.toList ++ " = ".toList) ++ opening :: (value ++ closing :: t) := by
    simp only [assigned, List.append_assoc, List.cons_append, List.nil_append]
  have none : ∀ key ∈ ["value", "path", "method"], requestMethod.findAll (key.toList ++ " = ".toList) = [] := by
    decide +kernel
  rw [shape, findAll_sign opens, findAll_sign closes, none key known, List.nil_append]

theorem findAll_arguments {first second : List Char} {ms ns : List String}
    (firstNames : ∀ t, requestMethod.findAll (first ++ t) = ms ++ requestMethod.findAll t)
    (secondNames : ∀ t, requestMethod.findAll (second ++ t) = ns ++ requestMethod.findAll t) :
    requestMethod.findAll ('(' :: arguments first second) = ms ++ ns := by
  have front : Sign '(' := by decide +kernel
  have comma : Sign ',' := by decide +kernel
  have space : Sign ' ' := by decide +kernel
  have shape : '(' :: arguments first second = [] ++ '(' :: (first ++ ([] ++ ',' :: ([] ++ ' ' :: (second ++ [')'])))) := rfl
  have last : requestMethod.findAll [')'] = [] := by decide +kernel
  rw [shape, findAll_sign front, firstNames, findAll_sign comma, findAll_sign space, secondNames, last, List.append_nil]
  rfl

namespace RequestMapping

theorem findAll_pathText (t : List Char) :
    requestMethod.findAll (r.pathText ++ t) = requestMethod.findAll r.path ++ requestMethod.findAll t := by
  have quote : Sign '"' := by decide +kernel
  have known : r.key ∈ ["value", "path", "method"] := List.mem_append_left ["method"] r.named
  exact findAll_assigned known quote quote r.path t

theorem findAll_methodText (t : List Char) :
    requestMethod.findAll (r.methodText ++ t) = r.methods ++ requestMethod.findAll t := by
  have opens : Sign '\x7b' := by decide +kernel
  have closes : Sign '\x7d' := by decide +kernel
  rw [methodText, findAll_assigned (by simp) opens closes, findAll_methodNames r.known]

end RequestMapping

theorem mappingPath_assigned {key : String} (named : key ∈ ["value", "path"]) {path : List Char} (noQuote : '"' ∉ path)
    (t : List Char) : mappingPath.atStart ('(' :: (assigned key '"' path '"' ++ t)) = some path := by
  have shape : assigned key '"' path '"' ++ t = key.toList ++ ' ' :: '=' :: ' ' :: '"' :: (path ++ '"' :: t) := by
    simp [assigned]
  have visible : ∀ c ∈ (assigned key '"' path '"' ++ t).head?, Text.isBlank c = false := by
    rcases List.mem_pair.1 named with rfl | rfl
    · rintro _ ⟨⟩
      decide
    · rintro _ ⟨⟩
      decide
  have assignment : (do skip (oneOf ["value", "path"]); gap; sign '='; gap : Recognizer Unit).Prefers
      ⟨some '(', assigned key '"' path '"' ++ t⟩ () ⟨some ' ', '"' :: (path ++ '"' :: t)⟩ := by
    rw [shape]
    apply Prefers.after (.skip (.oneOf (by decide +kernel) named))
    apply Prefers.after (.gap_space (by decide))
    apply Prefers.after .sign
    exact (Reads.gap_space (by decide)).prefers
  apply Prefers.atStart
  apply Prefers.after (.gap_none (by decide))
  apply Prefers.after .sign
  apply Prefers.after (.gap (w := []) Text.isBlank_nil visible)
  apply Prefers.bind (.skip (.optional_some assignment))
  apply Prefers.after (.skip (.optional_none (.sign (by decide))))
  apply Prefers.after (.gap_none (by decide))
  exact (Reads.doubleQuoted noQuote).prefers

theorem mappingPath_methods (value : List Char) (closing : Char) (t : List Char) :
    mappingPath.atStart ('(' :: (assigned "method" '\x7b' value closing ++ t)) = none := by
  have shape : assigned "method" '\x7b' value closing ++ t = 'm' :: ("ethod = ".toList ++ '\x7b' :: (value ++ closing :: t)) := by
    simp [assigned]
  have noKey : (do skip (oneOf ["value", "path"]); gap; sign '='; gap : Recognizer Unit).Refuses
      ⟨some '(', 'm' :: ("ethod = ".toList ++ '\x7b' :: (value ++ closing :: t))⟩ := by
    refine .bind (.skip (.oneOf fun w mem => ?_))
    rcases List.mem_pair.1 mem with rfl | rfl <;> simp
  rw [shape]
  apply Refuses.atStart
  apply Refuses.after (.gap_none (by decide))
  apply Refuses.after .sign
  apply Refuses.after (.gap_none (by decide))
  apply Refuses.after (.skip (.optional_none noKey))
  apply Refuses.after (.skip (.optional_none (.sign (by decide))))
  apply Refuses.after (.gap_none (by decide))
  exact .bind (.sign (by decide))

theorem whole_assigned {key : String} (known : key ∈ ["value", "path", "method"]) {opening closing : Char} {value : List Char}
    (opens : Text.isLineBreak opening = false) (closes : Text.isLineBreak closing = false)
    (whole : ∀ c ∈ value, Text.isLineBreak c = false) :
    ∀ c ∈ assigned key opening value closing, Text.isLineBreak c = false := by
  have keys : ∀ key ∈ ["value", "path", "method"], ∀ c ∈ key.toList, Text.isLineBreak c = false :=
    forall_inner_of_all (by decide)
  have equals : ∀ c ∈ " = ".toList, Text.isLineBreak c = false := forall_of_all (by decide)
  have closed : ∀ c ∈ value ++ [closing], Text.isLineBreak c = false :=
    List.forall_mem_append.2 ⟨whole, List.forall_mem_singleton.2 closes⟩
  have behind : ∀ c ∈ " = ".toList ++ opening :: (value ++ [closing]), Text.isLineBreak c = false :=
    List.forall_mem_append.2 ⟨equals, List.forall_mem_cons.2 ⟨opens, closed⟩⟩
  exact List.forall_mem_append.2 ⟨keys key known, behind⟩

theorem whole_requestLine {first second : List Char} (left : ∀ c ∈ first, Text.isLineBreak c = false)
    (right : ∀ c ∈ second, Text.isLineBreak c = false) : ∀ c ∈ requestLine first second, Text.isLineBreak c = false := by
  have shape : requestLine first second = "@RequestMapping(".toList ++ (first ++ (", ".toList ++ (second ++ [')']))) := by
    simp [requestLine, arguments]
  have head : ∀ c ∈ "@RequestMapping(".toList, Text.isLineBreak c = false := forall_of_all (by decide)
  have comma : ∀ c ∈ ", ".toList, Text.isLineBreak c = false := forall_of_all (by decide)
  have last : ∀ c ∈ [')'], Text.isLineBreak c = false := forall_of_all (by decide)
  rw [shape]
  simp only [List.forall_mem_append]
  exact ⟨head, left, comma, right, last⟩

theorem trim_requestLine (first second : List Char) : Text.trim (requestLine first second) = requestLine first second := by
  have shape : requestLine first second =
      '@' :: (("Request".toList ++ ("Mapping".toList ++ '(' :: (first ++ (", ".toList ++ second)))) ++ [')']) := by
    simp [requestLine, arguments]
  rw [shape]
  exact Text.trim_ending (by decide) (by simp) (by simp; decide)

theorem of_requestLine {first second path : List Char} {named : List String} (filled : named ≠ [])
    (names : requestMethod.findAll ('(' :: arguments first second) = named)
    (placed : (mappingPath.atStart ('(' :: arguments first second)).getD [] = path) :
    Line.of (requestLine first second) = .mapping named path := by
  have kind : "Request" ∈ mappingKinds := by decide
  have methods : mappingMethods "Request" ('(' :: arguments first second) = named := by
    rw [mappingMethods, if_pos rfl, names]
    simp [filled]
  rw [Line.of, requestLine, mapping_arguments kind]
  simp only [methods, placed]

namespace RequestMapping

theorem whole_pathText : ∀ c ∈ r.pathText, Text.isLineBreak c = false :=
  whole_assigned (List.mem_append_left ["method"] r.named) (by decide) (by decide) r.whole

theorem whole_methodText : ∀ c ∈ r.methodText, Text.isLineBreak c = false := by
  refine whole_assigned (by simp) (by decide) (by decide) fun c mem => ?_
  have comma : ∀ c ∈ ", ".toList, Text.isLineBreak c = false := forall_of_all (by decide)
  have names : ∀ m ∈ httpMethods, ∀ c ∈ methodName m, Text.isLineBreak c = false :=
    forall_inner_of_all (by decide +kernel)
  rcases Text.mem_joinWith mem with between | ⟨name, listed, mem⟩
  · exact comma c between
  · obtain ⟨m, there, rfl⟩ := List.mem_map.1 listed
    exact names m (r.known m there) c mem

theorem of_pathFirst : Line.of r.pathFirst = .mapping (requestMethod.findAll r.path ++ r.methods) r.path := by
  refine of_requestLine (by simp [r.filled]) (findAll_arguments r.findAll_pathText r.findAll_methodText) ?_
  rw [arguments, pathText, mappingPath_assigned r.named r.noQuote]
  rfl

theorem of_methodsFirst : Line.of r.methodsFirst = .mapping (r.methods ++ requestMethod.findAll r.path) [] := by
  refine of_requestLine (by simp [r.filled]) (findAll_arguments r.findAll_methodText r.findAll_pathText) ?_
  rw [arguments, methodText, mappingPath_methods]
  rfl

end RequestMapping

theorem endpoints_replaced {l m : List Char} (same : Line.of (Text.trim l) = Line.of (Text.trim m))
    {before after : List (List Char)} {t u : List Char} (linesT : Text.lines t = before ++ l :: after)
    (linesU : Text.lines u = before ++ m :: after) (file : String) : endpoints file t = endpoints file u := by
  have alike : classified t = classified u := by
    rw [classified, classified, Text.numberedLines, Text.numberedLines, linesT, linesU, List.zipIdx_append,
      List.zipIdx_append, List.zipIdx_cons, List.zipIdx_cons]
    simp only [List.map_append, List.map_cons, same]
  rw [endpoints_eq_emitted, endpoints_eq_emitted, alike]

def handlerLine : List Char := "String h() \x7b".toList

theorem of_handlerLine : Line.of (Text.trim handlerLine) = .method ['h'] := by
  have named : (method? (Text.trim handlerLine)).map (·.name) = some ['h'] := by decide +kernel
  obtain ⟨m, reads, name⟩ := Option.map_eq_some_iff.1 named
  rw [of_methodLine (by decide +kernel) (by decide +kernel) reads, name]

theorem endpoints_annotated {l t path : List Char} {methods : List String}
    (read : Line.of (Text.trim l) = .mapping methods path) (lines : Text.lines t = [l, handlerLine]) (file : String) :
    endpoints file t = methods.map fun m => endpoint .java file 2 m.toList path ['h'] := by
  have first : State.step file 1 {} (.mapping methods path) = (⟨[], some ⟨methods, String.ofList path, 1⟩⟩, []) := rfl
  have second : State.step file 2 ⟨[], some ⟨methods, String.ofList path, 1⟩⟩ (.method ['h']) =
      ({}, methods.map fun m => endpoint .java file 2 m.toList path ['h']) := by
    simp only [State.step, Route.Pairing.consume, String.toList_ofList, Route.join_nil_left]
  have numbered : Text.numberedLines t = [(1, l), (2, handlerLine)] := by
    rw [Text.numberedLines, lines]
    rfl
  rw [endpoints, scanLines, numbered, scan, read, first, scan, of_handlerLine, second, scan, List.nil_append, List.append_nil]

theorem lines_handled (x : Padded RequestMapping) (write : RequestMapping → List Char)
    (whole : ∀ c ∈ write x.item, Text.isLineBreak c = false) :
    Text.lines (Text.unlines [x.text write, handlerLine]) = [x.text write, handlerLine] := by
  have margins : ∀ c ∈ x.text write, Text.isLineBreak c = false := by
    refine List.forall_mem_append.2 ⟨List.forall_mem_append.2 ⟨?_, whole⟩, ?_⟩
    · exact fun c mem => isLineBreak_of_isSpace (x.frontSpace c mem)
    · exact fun c mem => isLineBreak_of_isSpace (x.backSpace c mem)
  have handler : ∀ c ∈ handlerLine, Text.isLineBreak c = false := forall_of_all (by decide +kernel)
  exact Text.lines_unlines (List.forall_mem_cons.2 ⟨margins, List.forall_mem_singleton.2 handler⟩)

/-- With the methods in front the path is lost, so the order of the attributes makes no difference only to an empty path. -/
theorem attribute_order (x : Padded RequestMapping) :
    Line.of (Text.trim (x.text RequestMapping.pathFirst)) =
      .mapping (requestMethod.findAll x.item.path ++ x.item.methods) x.item.path ∧
    Line.of (Text.trim (x.text RequestMapping.methodsFirst)) =
      .mapping (x.item.methods ++ requestMethod.findAll x.item.path) [] ∧
    ((∀ file before after t u, Text.lines t = before ++ x.text RequestMapping.pathFirst :: after →
        Text.lines u = before ++ x.text RequestMapping.methodsFirst :: after → endpoints file t = endpoints file u) ↔
      x.item.path = []) := by
  have pathFirst : Line.of (Text.trim (x.text RequestMapping.pathFirst)) =
      .mapping (requestMethod.findAll x.item.path ++ x.item.methods) x.item.path := by
    rw [trim_padded x (trim_requestLine _ _)]
    exact x.item.of_pathFirst
  have methodsFirst : Line.of (Text.trim (x.text RequestMapping.methodsFirst)) =
      .mapping (x.item.methods ++ requestMethod.findAll x.item.path) [] := by
    rw [trim_padded x (trim_requestLine _ _)]
    exact x.item.of_methodsFirst
  refine ⟨pathFirst, methodsFirst, ?_, ?_⟩
  · intro same
    have linesT := lines_handled x RequestMapping.pathFirst (whole_requestLine x.item.whole_pathText x.item.whole_methodText)
    have linesU := lines_handled x RequestMapping.methodsFirst (whole_requestLine x.item.whole_methodText x.item.whole_pathText)
    have alike := same "A.java" [] [handlerLine] _ _ linesT linesU
    rw [endpoints_annotated pathFirst linesT, endpoints_annotated methodsFirst linesU] at alike
    obtain ⟨m, mem⟩ := List.exists_mem_of_ne_nil _ x.item.filled
    have there := List.mem_map_of_mem (f := fun m => endpoint .java "A.java" 2 m.toList x.item.path ['h'])
      (List.mem_append_right (requestMethod.findAll x.item.path) mem)
    rw [alike] at there
    obtain ⟨k, -, equal⟩ := List.mem_map.1 there
    exact (String.ofList_injective (congrArg Endpoint.path equal)).symm
  · intro empty file before after t u linesT linesU
    have none : requestMethod.findAll [] = [] := rfl
    refine endpoints_replaced ?_ linesT linesU file
    rw [pathFirst, methodsFirst, empty, none, List.nil_append, List.append_nil]

def usersMapping : Padded RequestMapping where
  front := "  ".toList
  item :=
    { key := "path"
      named := by decide
      path := "/users".toList
      noQuote := by decide
      whole := forall_of_all (by decide)
      methods := ["GET", "PUT"]
      filled := by decide
      known := by decide }
  frontSpace := forall_of_all (by decide)

theorem attribute_order_users :
    Line.of (Text.trim "  @RequestMapping(path = \"/users\", method = \x7bRequestMethod.GET, RequestMethod.PUT\x7d)".toList) =
      .mapping ["GET", "PUT"] "/users".toList ∧
    Line.of (Text.trim "  @RequestMapping(method = \x7bRequestMethod.GET, RequestMethod.PUT\x7d, path = \"/users\")".toList) =
      .mapping ["GET", "PUT"] [] ∧
    ∃ file before after t u,
      Text.lines t = before ++ "  @RequestMapping(path = \"/users\", method = \x7bRequestMethod.GET, RequestMethod.PUT\x7d)".toList :: after ∧
      Text.lines u = before ++ "  @RequestMapping(method = \x7bRequestMethod.GET, RequestMethod.PUT\x7d, path = \"/users\")".toList :: after ∧
      endpoints file t ≠ endpoints file u := by
  have pathLine : usersMapping.text RequestMapping.pathFirst =
      "  @RequestMapping(path = \"/users\", method = \x7bRequestMethod.GET, RequestMethod.PUT\x7d)".toList := by decide +kernel
  have methodsLine : usersMapping.text RequestMapping.methodsFirst =
      "  @RequestMapping(method = \x7bRequestMethod.GET, RequestMethod.PUT\x7d, path = \"/users\")".toList := by decide +kernel
  have none : requestMethod.findAll usersMapping.item.path = [] := by decide +kernel
  obtain ⟨pathFirst, methodsFirst, same⟩ := attribute_order usersMapping
  rw [pathLine, none] at pathFirst
  rw [methodsLine, none] at methodsFirst
  rw [pathLine, methodsLine] at same
  have differ := mt same.1 (by decide)
  simp only [not_forall, exists_prop] at differ
  exact ⟨pathFirst, methodsFirst, differ⟩

end Drift.Source.Java
