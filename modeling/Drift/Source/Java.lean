import Drift.Route.Pairing
import Drift.Route.Path
import Drift.Recognizer.Source
import Drift.Source.Nesting
import Drift.Source.Scan
import Drift.Text.Split

namespace Drift.Source.Java

open Recognizer

def mapping : Recognizer (String × List Char) := do
  sign '@'
  let kind ← oneOf ["Get", "Post", "Put", "Delete", "Patch", "Request"]
  word "Mapping"
  wordEdge
  let args ← remainder
  return (kind, args)

def mappingPath : Recognizer (List Char) := do
  gap
  sign '('
  gap
  skip (optional do
    skip (oneOf ["value", "path"])
    gap
    sign '='
    gap)
  skip (optional (sign '\x7b'))
  gap
  doubleQuoted

def requestMethod : Recognizer String := do
  word "RequestMethod."
  oneOf ["GET", "POST", "PUT", "DELETE", "PATCH", "OPTIONS", "HEAD"]

def typeDeclaration : Recognizer (List Char) := do
  keywords ["public", "protected", "private", "abstract", "final", "static"]
  skip (oneOf ["class", "interface"])
  gap1
  run1 Text.isWord

/-- The head of a method: its visibility word, result type, name, and the text behind the opening
parenthesis. -/
structure Method where
  visibility : Option String
  type : List Char
  name : List Char
  rest : List Char

def methodMark : Recognizer Unit := do
  sign '@'
  skip (run1 Text.isWord)
  skip (optional (group '(' (isNot ')') ')'))
  gap1

def isTypeChar (c : Char) : Bool := isDollarWord c || c == '.'

def typeName (p : Char → Bool) : Recognizer (List Char) := do
  let base ← run1 p
  let arguments ← optional do
    sign '<'
    let s ← upTo '>'
    return '<' :: s ++ ['>']
  return base ++ arguments.getD []

def arrayMarks : Recognizer (List Char) := spanned (repeated (word "[]"))

def methodHead : Recognizer Method := do
  gap
  repeated methodMark
  let visibility ← optional do
    let v ← oneOf ["public", "private", "protected"]
    gap1
    return v
  keywords ["static", "final", "abstract", "synchronized", "native", "default", "strictfp"]
  skip (optional do
    sign '<'
    skip (run1 (isNot '>'))
    sign '>'
    gap1)
  let base ← typeName isTypeChar
  let marks ← arrayMarks
  gap1
  let x ← char fun c => c.isAlpha || c == '_' || c == '$'
  let r ← run isDollarWord
  gap
  sign '('
  let rest ← remainder
  return { visibility, type := base ++ marks, name := x :: r, rest }

def reservedWords : List String :=
  ["return", "new", "else", "throw", "case", "if", "for", "while", "switch", "catch", "do", "try", "yield",
   "public", "private", "protected", "static", "final", "abstract", "synchronized"]

def method? (line : List Char) : Option Method :=
  (methodHead.atStart line).filter fun m =>
    !reservedWords.contains (String.ofList m.type) && !reservedWords.contains (String.ofList m.name)

/-- A stripped line: a mapping, the declaration of a type or of a method, or anything else. -/
inductive Line where
  | mapping (methods : List String) (path : List Char)
  | type
  | method (name : List Char)
  | other

def mappingMethods (kind : String) (args : List Char) : List String :=
  if kind = "Request" then
    let named := requestMethod.findAll args
    if named.isEmpty then ["GET"] else named
  else [String.ofList (Text.upper kind.toList)]

def Line.of (stripped : List Char) : Line :=
  match Java.mapping.atStart stripped with
  | some (kind, args) => .mapping (mappingMethods kind args) ((mappingPath.atStart args).getD [])
  | none =>
    if typeDeclaration.accepts stripped then .type
    else
      match method? stripped with
      | some m => .method m.name
      | none => .other

structure State where
  base : List Char := []
  pairing : Route.Pairing := Route.Pairing.fresh

def State.step (file : String) (n : Nat) (s : State) : Line → State × List Endpoint
  | .mapping methods path =>
    ({ s with pairing := s.pairing.annotate methods (some (String.ofList path)) n }, [])
  | .type =>
    let (pending, rest) := s.pairing.consume
    ({ base := (pending.map (·.path.toList)).getD [], pairing := rest }, [])
  | .method fn =>
    match s.pairing.consume with
    | (some pending, rest) =>
      ({ s with pairing := rest },
        pending.methods.map fun m =>
          endpoint .java file n m.toList (Route.join s.base pending.path.toList) fn)
    | (none, _) => (s, [])
  | .other => (s, [])

def endpoints (file : String) (text : List Char) : List Endpoint :=
  scanLines (fun s n line => State.step file n s (Line.of (Text.trim line))) {} text

def parameterMark : Recognizer Unit := do
  sign '@'
  skip (run1 isDottedWord)
  skip (optional (group '(' (isNot ')') ')'))
  gap

def typedName (ws : List (List Char)) : Option Signature.Parameter :=
  match ws.reverse with
  | paramName :: type@(_ :: _) => some (parameter paramName (Text.joinWith [' '] type.reverse))
  | _ => none

def parameterOf (part : List Char) : Option Signature.Parameter :=
  let ws := Text.words (Text.trim (parameterMark.replace (fun _ => []) part))
  typedName (if ws.head? = some "final".toList then ws.tail else ws)

def parameters (text : List Char) : List Signature.Parameter :=
  (splitParams typeBrackets text).filterMap parameterOf

def results (type : List Char) : List Signature.Result :=
  if type = "void".toList then [] else [result type []]

def lineSignatures (file : String) (n : Nat) (line : List Char) : List Signature :=
  match method? line with
  | none => []
  | some m =>
    (enclosed? m.rest).toList.map fun (inside, _) =>
      { name := String.ofList m.name
        parameters := parameters inside
        results := results m.type
        file
        line := n
        visibility := (m.visibility.bind Visibility.ofName?).getD .package }

def signatures (file : String) (text : List Char) : List Signature := eachLine (lineSignatures file) text

end Drift.Source.Java
