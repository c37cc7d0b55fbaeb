import Drift.Recognizer.Source
import Drift.Source.Nesting
import Drift.Source.Scan
import Drift.Text.Split

namespace Drift.Source.Ruby

open Recognizer

def verbRoute : Recognizer (List Char × List Char × List Char) := do
  let verb ← oneOf ["get", "post", "put", "patch", "delete", "options", "head"]
  gap
  skip (optional (sign '('))
  gap
  let path ← plainQuoted
  let options ← remainder
  return (verb.toList, path, options)

def routeTarget : Recognizer (List Char) := do
  (do wordEdge; word "to:") <|> word "=>"
  gap
  skip (char isPlainQuote)
  let s ← run1 fun c => !isPlainQuote c
  skip (char isPlainQuote)
  return s

def resources : Recognizer (List Char × List Char) := do
  word "resources"
  gap
  skip (optional (sign '('))
  gap
  sign ':'
  let resource ← run1 Text.isWord
  let options ← remainder
  return (resource, options)

structure Filter where
  only : Bool
  actions : List (List Char)

def wordItems : Recognizer (List (List Char)) := do
  sign '%'
  skip (char fun c => c == 'i' || c == 'I' || c == 'w' || c == 'W')
  skip (char fun c => c == '[' || c == '(')
  let s ← run fun c => c != ']' && c != ')'
  skip (char fun c => c == ']' || c == ')')
  return Text.words s

def itemName (item : List Char) : List Char :=
  Text.trimWhile isPlainQuote (Text.trimLeftWhile (· == ':') (Text.trim item))

def listItems : Recognizer (List (List Char)) := do
  let s ← group '[' (isNot ']') ']'
  return ((Text.splitAtChar ',' s).filter fun item => !(Text.trim item).isEmpty).map itemName

def oneItem : Recognizer (List (List Char)) := do
  sign ':'
  let s ← run1 Text.isWord
  return [s]

def filter : Recognizer Filter := do
  wordEdge
  let key ← oneOf ["only", "except"]
  sign ':'
  gap
  let actions ← wordItems <|> listItems <|> oneItem
  return { only := key == "only", actions }

def resourceActions : List (String × String × Bool) :=
  [("index", "GET", false), ("create", "POST", false), ("show", "GET", true), ("update", "PUT", true),
   ("destroy", "DELETE", true)]

def routedActions (options : List Char) : List (String × String × Bool) :=
  let filters := filter.findAll options
  let last (only : Bool) := (filters.filter (·.only == only)).getLast?
  resourceActions.filter fun (action, _, _) =>
    (last true).all (·.actions.contains action.toList) &&
      (last false).all fun f => !f.actions.contains action.toList

def resourceEndpoints (file : String) (n : Nat) (resource options : List Char) : List Endpoint :=
  (routedActions options).map fun (action, method, member) =>
    endpoint .ruby file n method.toList ('/' :: resource ++ (if member then "/:id".toList else []))
      (resource ++ '#' :: action.toList)

def lineEndpoints (file : String) (n : Nat) (line : List Char) : List Endpoint :=
  let stripped := Text.trim line
  match resources.atStart stripped with
  | some (resource, options) => resourceEndpoints file n resource options
  | none =>
    match verbRoute.atStart stripped with
    | some (verb, path, options) =>
      [endpoint .ruby file n verb path ((routeTarget.search options).getD [])]
    | none => []

def endpoints (file : String) (text : List Char) : List Endpoint := eachLine (lineEndpoints file) text

/-- A definition: the visibility word in front of it, whether it is on `self`, its name and the text
of its parameters. -/
structure Definition where
  visibility : Option String
  singleton : Bool
  name : List Char
  parameters : List Char

def visibilityWords : List String := ["private", "protected", "public"]

def parenthesised : Recognizer (List Char) := do
  sign '('
  let s ← upTo ')'
  return s

def definition : Recognizer Definition := do
  let visibility ← optional do
    let v ← oneOf visibilityWords
    gap1
    return v
  keyword "def"
  let singleton ← optional (word "self.")
  let base ← identifier
  let mark ← optional (char fun c => c == '!' || c == '?' || c == '=')
  blanks
  let params ← optional (parenthesised <|> (do blanks1; many1 fun _ => true))
  gap
  atEnd
  return {
    visibility
    singleton := singleton.isSome
    name := base ++ mark.toList
    parameters := params.getD [] }

def marker : Recognizer String := do
  let v ← oneOf visibilityWords
  gap
  atEnd
  return v

def scope : Recognizer Unit := do
  skip (oneOf ["class", "module"])
  gap1
  skip (char Char.isUpper)

/-- A stripped line: the start of a class or module, a bare visibility marker, a definition, or
anything else. -/
inductive Line where
  | scope
  | marker (visibility : Visibility)
  | method (d : Definition)
  | other

def Line.of (stripped : List Char) : Line :=
  if Ruby.scope.accepts stripped then .scope
  else
    match (Ruby.marker.atStart stripped).bind Visibility.ofName? with
    | some v => .marker v
    | none =>
      match definition.atStart stripped with
      | some d => .method d
      | none => .other

def visibilityIn (current : Visibility) (d : Definition) : Visibility :=
  match d.visibility.bind Visibility.ofName? with
  | some v => v
  | none => if d.singleton then .pub else current

def parameterOf (part : List Char) : Option Signature.Parameter :=
  let bare := Text.trimLeftWhile (fun c => c == '*' || c == '&') (stripDefault part)
  let paramName := Text.trim (bare.takeWhile (· != ':'))
  if paramName.isEmpty then none else some (parameter paramName "Object".toList)

def parameters (text : List Char) : List Signature.Parameter :=
  (splitParams plainBrackets text).filterMap parameterOf

def step (file : String) (n : Nat) (current : Visibility) : Line → Visibility × List Signature
  | .scope => (.pub, [])
  | .marker v => (v, [])
  | .method d =>
    (current, [{
      name := String.ofList d.name
      parameters := parameters d.parameters
      file
      line := n
      visibility := visibilityIn current d }])
  | .other => (current, [])

def signatures (file : String) (text : List Char) : List Signature :=
  scanLines (fun s n line => step file n s (Line.of (Text.trim line))) .pub text

end Drift.Source.Ruby
