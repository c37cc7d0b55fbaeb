import Drift.Route.Pairing
import Drift.Recognizer.Source
import Drift.Source.Nesting
import Drift.Source.Scan
import Drift.Text.Split

namespace Drift.Source.Python

open Recognizer

def decoratorVerbs : List String :=
  ["route", "api_route", "get", "post", "put", "delete", "patch", "options", "head"]

def decorator : Recognizer (List Char × List Char × List Char) := do
  sign '@'
  gap
  skip (fewest isDottedWord fun c => c.any Text.isWord)
  skip (run1 Text.isWord)
  sign '.'
  let verb ← oneOf decoratorVerbs
  gap
  sign '('
  gap
  skip (optional (char fun c => c == 'r' || c == 'b' || c == 'u' || c == 'f'))
  let path ← plainQuoted
  let args ← remainder
  return (verb.toList, path, args)

def methodsArgument : Recognizer (List Char) := do
  word "methods"
  gap
  sign '='
  gap
  skip (char fun c => c == '[' || c == '(' || c == '\x7b')
  run fun c => c != ']' && c != ')' && c != '\x7d'

def quotedWord : Recognizer (List Char) := do
  skip (char isPlainQuote)
  let s ← run1 Text.isWord
  skip (char isPlainQuote)
  return s

def decoratorMethods (verb args : List Char) : List (List Char) :=
  if verb ≠ "route".toList ∧ verb ≠ "api_route".toList then [Text.upper verb]
  else
    let named := ((methodsArgument.search args).map fun inside => knownMethods (quotedWord.findAll inside)).getD []
    if named.isEmpty then ["GET".toList] else named

def djangoRoute : Recognizer (List Char × List Char × List Char) := do
  notAfter isDottedWord
  let fn ← oneOf ["re_path", "path", "url"]
  gap
  sign '('
  gap
  skip (optional (char (· == 'r')))
  let path ← plainQuoted
  gap
  sign ','
  gap
  let handler ← run1 isDottedWord
  return (fn.toList, path, handler)

def definitionName : Recognizer (List Char) := do
  skip (optional (keyword "async"))
  keyword "def"
  run1 Text.isWord

/-- A stripped line: a route decorator, or code that may define a function and may hold a URL
pattern. -/
inductive Line where
  | routed (methods : List (List Char)) (path : List Char)
  | code (defined : Option (List Char)) (route : Option (List Char × List Char))

/-- The path and handler of a URL pattern. An inclusion is no endpoint, and a regular expression
loses its anchors. -/
def urlPattern (fn path handler : List Char) : Option (List Char × List Char) :=
  if handler = "include".toList then none
  else if fn = "path".toList then some (path, handler)
  else some (Text.trimRightWhile (· == '$') (Text.trimLeftWhile (· == '^') path), handler)

def Line.of (stripped : List Char) : Line :=
  match Python.decorator.atStart stripped with
  | some (verb, path, args) => .routed (decoratorMethods verb args) path
  | none =>
    .code (definitionName.atStart stripped)
      ((djangoRoute.search stripped).bind fun (fn, path, handler) => urlPattern fn path handler)

def routeStep (file : String) (p : Route.Pairing) (n : Nat) (line : List Char) :
    Route.Pairing × List Endpoint :=
  match Line.of (Text.trim line) with
  | .routed methods path =>
    (p.annotate (methods.map String.ofList) (some (String.ofList path)) n, [])
  | .code defined route =>
    match p.consume with
    | (some pending, rest) =>
      match defined with
      | some fn =>
        (rest, pending.methods.map fun m => endpoint .python file n m.toList pending.path.toList fn)
      | none => (p, [])
    | (none, _) =>
      (p, route.toList.map fun (path, handler) => endpoint .python file n "GET".toList path handler)

def endpoints (file : String) (text : List Char) : List Endpoint :=
  scanLines (routeStep file) Route.Pairing.fresh text

/-- A definition on one line: the name, the text of the parameters and that of the result. -/
def definition : Recognizer (List Char × List Char × Option (List Char)) := do
  skip (optional (keyword "async"))
  keyword "def"
  let fn ← run1 Text.isWord
  gap
  skip (optional (group '[' (isNot ']') ']'))
  sign '('
  let params ← upTo ')'
  gap
  let returns ← optional do
    word "->"
    blanks
    fewest1 (fun _ => true) fun c => c.any fun c => Text.isBlank c || c == ':'
  gap
  sign ':'
  return (fn, params, returns)

def skippedParameters : List String := ["self", "cls", "*", "/"]

def parameterOf (rawPart : List Char) : Option Signature.Parameter :=
  let part := stripDefault rawPart
  if skippedParameters.contains (String.ofList part) then none
  else
    let (left, written) :=
      match Text.cutAtFirst? ':' part with
      | some (left, right) => (left, Text.trim right)
      | none => (part, "Any".toList)
    let bare := Text.trimLeftWhile (· == '*') (Text.trim left)
    if bare.isEmpty then none else some (parameter bare written)

def parameters (text : List Char) : List Signature.Parameter :=
  (splitParams plainBrackets text).filterMap parameterOf

def isHidden (fn : List Char) : Bool :=
  let dunder := "__".toList
  "_".toList.isPrefixOf fn && !(dunder.isPrefixOf fn && dunder.isSuffixOf fn)

def lineSignatures (file : String) (n : Nat) (line : List Char) : List Signature :=
  match definition.atStart (Text.trim line) with
  | none => []
  | some (fn, params, returns) =>
    [{ name := String.ofList fn
       parameters := parameters params
       results := returns.toList.map fun t => result (Text.trim t) []
       file
       line := n
       visibility := if isHidden fn then .priv else .pub }]

def signatures (file : String) (text : List Char) : List Signature := eachLine (lineSignatures file) text

end Drift.Source.Python
