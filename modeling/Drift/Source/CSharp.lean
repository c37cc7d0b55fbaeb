import Drift.Source.Handler
import Drift.Source.Java

namespace Drift.Source.CSharp

open Recognizer

def template : Recognizer (List Char) := do
  gap
  sign '('
  gap
  skip (optional do
    word "template"
    gap
    sign ':'
    gap)
  doubleQuoted

def httpAttribute : Recognizer (List Char × Option (List Char)) := do
  sign '['
  gap
  word "Http"
  let verb ← oneOf ["Get", "Post", "Put", "Delete", "Patch", "Head", "Options"]
  wordEdge
  let path ← optional template
  return (verb.toList, path)

def routeAttribute : Recognizer (List Char) := do
  sign '['
  gap
  word "Route"
  template

def minimalRoute : Recognizer (List Char × List Char × List Char) := do
  wordEdge
  skip (run1 Text.isWord)
  word ".Map"
  let verb ← oneOf ["Get", "Post", "Put", "Delete", "Patch"]
  gap
  sign '('
  gap
  let path ← doubleQuoted
  let args ← remainder
  return (verb.toList, path, args)

def typeDeclaration : Recognizer (List Char) := do
  keywords ["public", "internal", "protected", "private", "sealed", "abstract", "static", "partial"]
  skip (oneOf ["class", "record"])
  gap1
  run1 Text.isWord

def resultType : Recognizer (List Char) := do
  let base ← Java.typeName isDottedWord
  let array ← optional (word "[]")
  let question ← optional (sign '?')
  return base ++ (if array.isSome then "[]".toList else []) ++ (if question.isSome then ['?'] else [])

def methodHead : Recognizer Java.Method := do
  gap
  repeated do skip (group '[' (isNot ']') ']'); gap
  let visibility ← optional do
    let v ← oneOf ["public", "private", "protected", "internal"]
    gap1
    return v
  keywords ["internal", "static", "async", "virtual", "override", "abstract", "sealed", "new", "partial",
    "extern", "unsafe", "readonly"]
  let type ← resultType
  gap1
  let fn ← identifier
  gap
  skip (optional (group '<' (fun c => c != '>' && c != '(') '>'))
  gap
  sign '('
  let rest ← remainder
  return { visibility, type, name := fn, rest }

def reservedWords : List String :=
  ["return", "new", "else", "throw", "case", "if", "for", "foreach", "while", "switch", "catch", "using",
   "lock", "await", "var", "yield", "public", "private", "protected", "internal", "static"]

def method? (line : List Char) : Option Java.Method :=
  (methodHead.atStart line).filter fun m =>
    !reservedWords.contains (String.ofList m.type) && !reservedWords.contains (String.ofList m.name)

/-- A stripped line: a minimal API, an attribute with a method or a path or both, the declaration of a
type or of a method, or anything else. -/
inductive Line where
  | minimal (verb path args : List Char)
  | attribute (methods : List String) (path : Option (List Char))
  | type (name : List Char)
  | method (name : List Char)
  | other

def attribute? (stripped : List Char) : Option (List String × Option (List Char)) :=
  match httpAttribute.search stripped, routeAttribute.search stripped with
  | none, none => none
  | some (verb, path), route =>
    some ([String.ofList (Text.upper verb)], if (path.getD []).isEmpty then route <|> path else path)
  | none, some route => some ([], some route)

def Line.of (stripped : List Char) : Line :=
  match minimalRoute.search stripped with
  | some (verb, path, args) => .minimal verb path args
  | none =>
    match attribute? stripped with
    | some (methods, path) => .attribute methods path
    | none =>
      match typeDeclaration.atStart stripped with
      | some typeName => .type typeName
      | none =>
        match method? stripped with
        | some m => .method m.name
        | none => .other

def controllerToken (typeName : List Char) : List Char :=
  Text.lower (Text.dropTail "Controller".toList typeName)

def methodPath (base path fn : List Char) : List Char :=
  let path := Text.replace "[action]".toList (Text.lower fn) path
  if "~/".toList.isPrefixOf path then path.drop 1
  else if path.head? = some '/' then path
  else Route.join base path

def step (file : String) (n : Nat) (s : Java.State) : Line → Java.State × List Endpoint
  | .minimal verb path args =>
    (s, [endpoint .csharp file n verb path (handlerName (Text.trimLeftWhile (· == ',') args))])
  | .attribute methods path =>
    ({ s with pairing := s.pairing.annotate methods (path.map String.ofList) n }, [])
  | .type typeName =>
    let (pending, rest) := s.pairing.consume
    let base := pending.map fun p => Text.replace "[controller]".toList (controllerToken typeName) p.path.toList
    ({ base := base.getD [], pairing := rest }, [])
  | .method fn =>
    match s.pairing.consume with
    | (some pending, rest) =>
      ({ s with pairing := rest },
        pending.methods.map fun m =>
          endpoint .csharp file n m.toList (methodPath s.base pending.path.toList fn) fn)
    | (none, _) => (s, [])
  | .other => (s, [])

def endpoints (file : String) (text : List Char) : List Endpoint :=
  scanLines (fun s n line => step file n s (Line.of (Text.trim line))) {} text

def parameterAttribute : Recognizer Unit := do
  skip (group '[' (isNot ']') ']')
  gap

def parameterModifiers : List String := ["ref", "out", "in", "params", "this", "scoped"]

def parameterOf (part : List Char) : Option Signature.Parameter :=
  let bare := parameterAttribute.replace (fun _ => []) part
  let ws := Text.words (bare.takeWhile (· != '='))
  Java.typedName (ws.dropWhile fun w => parameterModifiers.contains (String.ofList w))

def parameters (text : List Char) : List Signature.Parameter :=
  (splitParams typeBrackets text).filterMap parameterOf

structure UnknownVisibility where
  word : String
  deriving DecidableEq, Repr

def UnknownVisibility.message (e : UnknownVisibility) : String := s!"'{e.word}' is not a valid Visibility"

def visibilityOf (w : Option String) : Except UnknownVisibility Visibility :=
  match w with
  | none => .ok .priv
  | some w =>
    match Visibility.ofName? w with
    | some v => .ok v
    | none => .error ⟨w⟩

def lineSignatures (file : String) (n : Nat) (line : List Char) :
    Except UnknownVisibility (List Signature) :=
  match method? line with
  | none => .ok []
  | some m =>
    match enclosed? m.rest with
    | none => .ok []
    | some (inside, _) => do
      let visibility ← visibilityOf m.visibility
      return [{
        name := String.ofList m.name
        parameters := parameters inside
        results := Java.results m.type
        file
        line := n
        visibility }]

def signatures (file : String) (text : List Char) : Except UnknownVisibility (List Signature) :=
  return ((← (Text.numberedLines text).mapM fun (n, l) => lineSignatures file n l)).flatten

end Drift.Source.CSharp
