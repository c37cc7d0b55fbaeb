import Drift.Endpoint
import Drift.Recognizer.Source
import Drift.Text.Case
import Drift.Text.Lines
import Drift.Text.Split

namespace Drift.Document

open Recognizer

def fence : List Char := "\x60\x60\x60".toList

def isFence (stripped : List Char) : Bool := fence.isPrefixOf stripped

def fenceLabel (stripped : List Char) : List Char := Text.lower (Text.trim (stripped.drop 3))

def endpointHeading : Recognizer (String × List Char) := do
  word "###"
  gap1
  let method ← oneOf httpMethods
  gap1
  skip (optional (sign '\x60'))
  let path ← run1 fun c => !Text.isBlank c && c != '\x60'
  return (method, path)

def heading : Recognizer Unit := do
  sign '#'
  skip (optional (sign '#'))
  skip (optional (sign '#'))
  skip (char Text.isBlank)

def bullet : Recognizer (List Char × Option (List Char) × List Char) := do
  skip (char fun c => c == '-' || c == '*')
  gap1
  sign '\x60'
  let paramName ← run1 Text.isWord
  sign '\x60'
  gap
  let type ← optional do
    sign '('
    let t ← run1 (isNot ')')
    sign ')'
    return t
  gap
  skip (optional (sign ':'))
  gap
  let description ← remainder
  return (paramName, type, description)

def pathParameter : Recognizer (List Char) :=
  (do sign ':'; run1 Text.isWord) <|> (do
    sign '\x7b'
    let s ← run1 Text.isWord
    sign '\x7d'
    return s)

inductive Line where
  | endpoint (method : String) (path : List Char)
  | blank
  | heading
  | bullet (p : Endpoint.Parameter)
  | prose (text : List Char)

def bulletParameter (b : List Char × Option (List Char) × List Char) : Endpoint.Parameter where
  name := String.ofList b.1
  type := String.ofList (Text.trim (b.2.1.getD "string".toList))
  description := String.ofList (Text.trim b.2.2)

def Line.of (stripped : List Char) : Line :=
  match endpointHeading.atStart stripped with
  | some (method, path) => .endpoint method path
  | none =>
    if stripped.isEmpty then .blank
    else if Document.heading.accepts stripped then .heading
    else
      match Document.bullet.atStart stripped with
      | some b => .bullet (bulletParameter b)
      | none => .prose stripped

def isDescription (text : List Char) : Bool :=
  !(text.head?.any fun c => c == '-' || c == '*' || c == '|' || c == '>')

def addLine (e : Endpoint) : Line → Endpoint
  | .bullet p => { e with parameters := e.parameters ++ [p] }
  | .prose text =>
    if e.description.isEmpty && isDescription text then { e with description := String.ofList text } else e
  | _ => e

/-- The first example, and any that mentions a request, is the request body; another is the response
body. -/
def addExample (e : Endpoint) (body : List Char) : Endpoint :=
  if e.requestBody.isNone || Text.contains "request".toList (Text.lower body) then
    { e with requestBody := some (String.ofList body) }
  else { e with responseBody := some (String.ofList body) }

/-- A parameter of the path comes last and is required; a bullet of its name gives type and
description. -/
def placeParameter (ps : List Endpoint.Parameter) (paramName : String) : List Endpoint.Parameter :=
  let described := ps.find? (·.name == paramName)
  ps.filter (·.name != paramName) ++ [{
    name := paramName
    location := "path"
    required := true
    type := (described.map (·.type)).getD "string"
    description := (described.map (·.description)).getD s!"{paramName} identifier" }]

def finish (e : Endpoint) : Endpoint :=
  { e with parameters :=
      ((pathParameter.findAll e.path.toList).map String.ofList).foldl placeParameter e.parameters }

structure Block where
  label : List Char
  lines : List (List Char) := []

structure State where
  current : Option Endpoint := none
  block? : Option Block := none

def Block.text (b : Block) : List Char := Text.joinWith ['\n'] b.lines.reverse ++ ['\n']

def closeBlock (s : State) (b : Block) : State where
  current := if b.label = "json".toList then s.current.map (addExample · b.text) else s.current

def readLine (source : String) (s : State) (n : Nat) : Line → State × List Endpoint
  | .endpoint method path =>
    ({ current := some { method, path := String.ofList path, file := source, line := n } },
      (s.current.map finish).toList)
  | .heading => ({}, (s.current.map finish).toList)
  | l => ({ s with current := s.current.map (addLine · l) }, [])

def step (source : String) (s : State) (n : Nat) (line : List Char) : State × List Endpoint :=
  let stripped := Text.trim line
  match s.block? with
  | some b =>
    if isFence stripped then (closeBlock s b, [])
    else ({ s with block? := some { b with lines := line :: b.lines } }, [])
  | none =>
    if isFence stripped then ({ s with block? := some { label := fenceLabel stripped } }, [])
    else readLine source s n (Line.of stripped)

def endpointsFrom (source : String) : State → List (Nat × List Char) → List Endpoint
  | s, [] => (s.current.map finish).toList
  | s, (n, l) :: r => (step source s n l).2 ++ endpointsFrom source (step source s n l).1 r

def outlineEndpoints (source : String) (text : List Char) : List Endpoint :=
  endpointsFrom source {} (Text.numberedLines text)

end Drift.Document
