import Drift.Endpoint
import Drift.Json.Data
import Drift.Text.Case

namespace Drift.Document.OpenApi

abbrev Entries := List (Value × Value)

def field (name : String) (entries : Entries) : Option Value := Value.field name entries

def textOf (v : Option Value) : String := (v.bind Value.text?).getD ""

def orElse (s t : String) : String := if s.isEmpty then t else s

def wordOf (v : Value) : Except Json.Failure String :=
  match v.chars? with
  | some cs => .ok (String.ofList cs)
  | none => .error .hugeNumber

section

variable (store : Store)

def itemsOf (v : Option Value) : List Value := (v.bind store.items?).getD []

def entriesOf (v : Option Value) : Option Entries := v.bind store.entries?

def parameterOf (v : Value) : Option Endpoint.Parameter := do
  let p ← store.entries? v
  let name ← (← field "name" p).text?
  let location := orElse (textOf (field "in" p)) "query"
  if location = "body" then none
  else
    let schema := (entriesOf store (field "schema" p)).getD []
    some {
      name
      location
      required := match field "required" p with
        | some (.bool b) => b
        | _ => false
      type := orElse (orElse (textOf (field "type" schema)) (textOf (field "type" p))) "string"
      description := textOf (field "description" p) }

def setParameter : List Endpoint.Parameter → Endpoint.Parameter → List Endpoint.Parameter
  | [], p => [p]
  | q :: qs, p => if q.name = p.name ∧ q.location = p.location then p :: qs else q :: setParameter qs p

def parameters (vs : List Value) : List Endpoint.Parameter :=
  (vs.filterMap (parameterOf store)).foldl setParameter []

def schemaText (v : Option Value) : Except Json.Failure (Option String) :=
  match v with
  | none => .ok none
  | some .null => .ok none
  | some v => some <$> Json.dataText store v

def isTruthy (v : Value) : Bool :=
  match v with
  | .null => false
  | .bool b => b
  | .int n => n != 0
  | .float x => x != 0.0
  | .str s => !s.isEmpty
  | .bytes bs => !bs.isEmpty
  | v =>
    match store.at? v with
    | some (.list items) => !items.isEmpty
    | some (.set items) => !items.isEmpty
    | some (.map entries) => !entries.isEmpty
    | _ => true

def firstMapping (entries : Entries) : Option Entries := entries.findSome? fun (_, v) => store.entries? v

def mediaType (content : Entries) : Option Entries :=
  entriesOf store (field "application/json" content)
    <|> entriesOf store (field "multipart/form-data" content)
    <|> firstMapping store content

def bodyParameter (operation : Entries) : Option (Option Value) :=
  (itemsOf store (field "parameters" operation)).findSome? fun v => do
    let p ← store.entries? v
    if textOf (field "in" p) = "body" then some (field "schema" p) else none

def requestBody (operation : Entries) : Except Json.Failure (Option String) :=
  match (field "requestBody" operation).filter (isTruthy store) with
  | some body =>
    match ((store.entries? body).bind fun b => entriesOf store (field "content" b)).bind (mediaType store) with
    | some media => schemaText store (field "schema" media)
    | none => .ok none
  | none =>
    match bodyParameter store operation with
    | some schema => schemaText store schema
    | none => .ok none

/-- The schema of a response: its own, or that of the first media type; none if it has neither place for
one. -/
def responseSchema (v : Value) : Option (Option Value) := do
  let r ← store.entries? v
  match field "schema" r with
  | some schema => some (some schema)
  | none =>
    let content ← entriesOf store (field "content" r)
    let media ← firstMapping store content
    some (field "schema" media)

def statusCodes (status : Value) : Except Json.Failure (List Nat) :=
  (wordOf status).map fun w => Text.codes w.toList

/-- The schema of the first successful response, in the order of the status texts. -/
def responseBody (v : Option Value) : Except Json.Failure (Option String) :=
  match entriesOf store v with
  | none => .ok none
  | some responses => do
    let ordered ← responses.mapM fun (k, r) => return (← statusCodes k, r)
    let successful := (ordered.mergeSort fun a b => !(b.1 < a.1)).filter fun (k, _) => k.head? == some '2'.toNat
    match successful.findSome? fun (_, r) => responseSchema store r with
    | some schema => schemaText store schema
    | none => return none

end

def methodOf (key : Value) : Option String :=
  match key with
  | .str s =>
    let m := String.ofList (Text.upper s.toList)
    if httpMethods.contains m then some m else none
  | _ => none

section

variable (store : Store)

def operationEndpoint (file : String) (path : Value) (method : String) (shared : List Value)
    (operation : Entries) : Except Json.Failure Endpoint := do
  let path ← wordOf path
  let request ← requestBody store operation
  let response ← responseBody store (field "responses" operation)
  return {
    method
    path
    description := orElse (textOf (field "summary" operation)) (textOf (field "description" operation))
    file
    parameters := parameters store (shared ++ itemsOf store (field "parameters" operation))
    requestBody := request
    responseBody := response }

def pathEndpoints (file : String) (path : Value) (item : Entries) : Except Json.Failure (List Endpoint) := do
  let shared := itemsOf store (field "parameters" item)
  let found ← item.mapM fun (key, v) =>
    match methodOf key with
    | none => .ok none
    | some method =>
      some <$> operationEndpoint store file path method shared ((store.entries? v).getD [])
  return found.filterMap id

def endpoints (file : String) (document : Entries) : Except Json.Failure (List Endpoint) :=
  match entriesOf store (field "paths" document) with
  | none => .ok []
  | some paths => do
    let found ← paths.mapM fun (path, item) =>
      match store.entries? item with
      | none => .ok []
      | some item => pathEndpoints store file path item
    return found.flatten

end

end Drift.Document.OpenApi
