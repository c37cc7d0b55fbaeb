import Drift.Source.Handler
import Drift.Source.Scan
import Drift.Text.Split

namespace Drift.Source.JavaScript

open Recognizer

def receivers : List String := ["app", "router", "routes", "server", "fastify", "express"]

def verbs : List String := ["get", "post", "put", "delete", "patch", "options", "head"]

def route : Recognizer (List Char × List Char × List Char) := do
  wordEdge
  skip (oneOf receivers)
  sign '.'
  let verb ← oneOf verbs
  gap
  sign '('
  gap
  let q ← char isQuote
  sign '/'
  let path ← run fun c => !isQuote c
  sign q
  gap
  let args ← remainder
  return (verb.toList, '/' :: path, args)

def lineEndpoints (file : String) (n : Nat) (line : List Char) : List Endpoint :=
  match route.search line with
  | some (verb, path, args) =>
    [endpoint .javascript file n verb path (handlerName (Text.trimLeftWhile (· == ',') args))]
  | none => []

def endpoints (file : String) (text : List Char) : List Endpoint := eachLine (lineEndpoints file) text

/-- A declared function: its visibility word, name, parameter text and result text. -/
structure Declared where
  visibility : Option String := none
  name : List Char
  parameters : List Char
  result : Option (List Char)

def typeParameters : Recognizer Unit := skip (optional (group '<' (isNot '(') '>'))

/-- The parameters, up to a closing parenthesis behind which the rest of the form fits. -/
def parameterText : Recognizer (List Char) := do
  sign '('
  upTo ')'

def resultType : Recognizer (Option (List Char)) := optional do
  gap
  sign ':'
  blanks
  fewest1 (fun c => c != '\x7b' && c != '=') fun c => c.all fun c => Text.isBlank c || c == '\x7b' || c == '='

def functionForm : Recognizer Declared := do
  skip (optional (keyword "export"))
  skip (optional (keyword "default"))
  skip (optional (keyword "async"))
  word "function"
  gap
  skip (optional (sign '*'))
  gap
  let fn ← dollarIdentifier
  gap
  typeParameters
  gap
  let params ← parameterText
  let returns ← resultType
  gap
  skip (optional do sign '\x7b'; remainder)
  atEnd
  return { name := fn, parameters := params, result := returns }

def arrowForm : Recognizer Declared := do
  skip (optional (keyword "export"))
  skip (oneOf ["const", "let", "var"])
  gap1
  let fn ← dollarIdentifier
  gap
  skip (optional do sign ':'; run1 (isNot '='))
  sign '='
  gap
  skip (optional do word "async"; gap)
  typeParameters
  gap
  let params ← parameterText
  let returns ← resultType
  gap
  word "=>"
  return { name := fn, parameters := params, result := returns }

def controlWords : List String :=
  ["if", "for", "while", "switch", "catch", "return", "function", "with", "else", "do", "typeof", "new",
   "await", "super", "constructor"]

def methodForm : Recognizer Declared := do
  let visibility ← optional do
    let v ← oneOf ["public", "private", "protected"]
    gap1
    return v
  skip (optional (keyword "static"))
  skip (optional (keyword "readonly"))
  skip (optional (keyword "async"))
  skip (optional (sign '*'))
  notAhead do skip (oneOf controlWords); wordEdge
  let fn ← dollarIdentifier
  gap
  typeParameters
  gap
  let params ← parameterText
  let returns ← resultType
  gap
  sign '\x7b'
  gap
  atEnd
  return { visibility, name := fn, parameters := params, result := returns }

def declared? (stripped : List Char) : Option Declared :=
  functionForm.atStart stripped <|> arrowForm.atStart stripped <|> methodForm.atStart stripped

def destructured (closing : Char) (part : List Char) : List Char × Option (List Char) :=
  match Text.cutAtLast? closing part with
  | some (before, after) =>
    match after.dropWhile Text.isBlank with
    | ':' :: written => (before ++ [closing], some written)
    | _ => (part, none)
  | none => (part, none)

def splitType (part : List Char) : List Char × Option (List Char) :=
  match part.head? with
  | some '\x7b' => destructured '\x7d' part
  | some '[' => destructured ']' part
  | _ =>
    match Text.cutAtFirst? ':' part with
    | some (left, right) => (left, some right)
    | none => (part, none)

def parameterOf (rawPart : List Char) : Option Signature.Parameter :=
  let (left, written) := splitType (stripDefault rawPart)
  let bare := Text.trimRightWhile (· == '?') (Text.dropHead "...".toList (Text.trim left))
  if bare.isEmpty ∨ bare = "this".toList then none
  else some (parameter bare ((written.map Text.trim).getD "any".toList))

def parameters (text : List Char) : List Signature.Parameter :=
  (splitParams typeBrackets text).filterMap parameterOf

def results (returns : Option (List Char)) : List Signature.Result :=
  let t := Text.trim (returns.getD [])
  if t.isEmpty then [] else [result t []]

def lineSignatures (file : String) (n : Nat) (line : List Char) : List Signature :=
  (declared? (Text.trim line)).toList.map fun d =>
    { name := String.ofList d.name
      parameters := parameters d.parameters
      results := results d.result
      file
      line := n
      visibility := (d.visibility.bind Visibility.ofName?).getD .pub }

def signatures (file : String) (text : List Char) : List Signature := eachLine (lineSignatures file) text

end Drift.Source.JavaScript
