import Drift.Source.Handler
import Drift.Source.Scan
import Drift.Text.Split

namespace Drift.Source.Go

open Recognizer

def routeVerbs : List String :=
  httpMethods ++ ["Get", "Post", "Put", "Delete", "Patch", "Options", "Head"]

def frameworkRoute : Recognizer (List Char × List Char × List Char) := do
  wordEdge
  skip (run1 Text.isWord)
  sign '.'
  let verb ← oneOf routeVerbs
  gap
  sign '('
  gap
  sign '"'
  sign '/'
  let path ← run (isNot '"')
  sign '"'
  let args ← remainder
  return (verb.toList, '/' :: path, args)

def handleRoute : Recognizer (List Char × List Char) := do
  wordEdge
  skip (run1 Text.isWord)
  sign '.'
  skip (oneOf ["HandleFunc", "Handle"])
  gap
  sign '('
  gap
  sign '"'
  let pattern ← run1 (isNot '"')
  sign '"'
  let args ← remainder
  return (pattern, args)

def methodsCall : Recognizer (List Char) := do
  word ".Methods"
  gap
  group '(' (isNot ')') ')'

def callArgsFrom : Nat → List Char → List Char
  | _, [] => []
  | depth, c :: r =>
    if c = '(' then c :: callArgsFrom (depth + 1) r
    else if c = ')' then
      match depth with
      | 0 => []
      | d + 1 => c :: callArgsFrom d r
    else c :: callArgsFrom depth r

def callArgs (rest : List Char) : List Char := callArgsFrom 0 rest

def chainedMethods (rest : List Char) : List (List Char) :=
  let named := ((methodsCall.search rest).map fun inside => knownMethods (doubleQuoted.findAll inside)).getD []
  if named.isEmpty then ["GET".toList] else named

def splitPattern (pattern : List Char) : List Char × List Char :=
  (Text.cutAtLast? ' ' (Text.trim pattern)).getD ([], Text.trim pattern)

def lineEndpoints (file : String) (n : Nat) (line : List Char) : List Endpoint :=
  match frameworkRoute.search line with
  | some (verb, path, args) => [endpoint .go file n verb path (handlerName (callArgs args))]
  | none =>
    match handleRoute.search line with
    | none => []
    | some (pattern, args) =>
      let (method, path) := splitPattern pattern
      if path.head? = some '/' then
        let methods := if method.isEmpty then chainedMethods args else [method]
        methods.map fun m => endpoint .go file n m path (handlerName (callArgs args))
      else []

def endpoints (file : String) (text : List Char) : List Endpoint := eachLine (lineEndpoints file) text

def functionHead : Recognizer (List Char × List Char) := do
  keyword "func"
  skip (optional do skip (group '(' (isNot ')') ')'); gap)
  let fn ← identifier
  gap
  skip (optional do skip (group '[' (isNot ']') ']'); gap)
  sign '('
  let rest ← remainder
  return (fn, rest)

def typeWords : List String := ["chan", "func", "map", "struct", "interface"]

def field (part : List Char) : List Char × List Char :=
  match Text.headWord? part with
  | some (w, rest) =>
    if !typeWords.contains (String.ofList w) && isIdentifier w then (w, Text.trim rest) else ([], part)
  | none => ([], part)

def groupNames : List (List Char × List Char) → List (List Char × List Char) × List Char
  | [] => ([], [])
  | (fieldName, type) :: r =>
    let (fields, next) := groupNames r
    if !fieldName.isEmpty then ((fieldName, type) :: fields, type)
    else if !next.isEmpty && isIdentifier type then ((type, next) :: fields, next)
    else (([], type) :: fields, next)

def fields (text : List Char) : List (List Char × List Char) :=
  (groupNames ((splitParams plainBrackets text).map field)).1

def resultText (text : List Char) : List Char :=
  let t := Text.trim text
  if t.getLast? = some '\x7b' then Text.trim t.dropLast
  else
    match Text.cutAtText? " \x7b".toList t with
    | some (before, _) => Text.trim before
    | none => t

def results (text : List Char) : List Signature.Result :=
  let t := resultText text
  if t.isEmpty then []
  else if t.head? = some '(' ∧ findClosing t 0 ['('] [')'] = some (t.length - 1) then
    (fields (t.drop 1).dropLast).map fun (fieldName, type) => result type fieldName
  else [result t []]

def lineSignatures (file : String) (n : Nat) (rawLine : List Char) : List Signature :=
  let line := Text.trim rawLine
  if Text.contains "*testing.".toList line then []
  else
    match functionHead.atStart line with
    | none => []
    | some (fn, rest) =>
      match enclosed? rest with
      | none => []
      | some (inside, after) =>
        [{ name := String.ofList fn
           parameters := (fields inside).map fun (fieldName, type) => parameter fieldName type
           results := results after
           file
           line := n
           visibility := if (fn.head?.any Char.isUpper) then .pub else .priv }]

def signatures (file : String) (text : List Char) : List Signature := eachLine (lineSignatures file) text

end Drift.Source.Go
