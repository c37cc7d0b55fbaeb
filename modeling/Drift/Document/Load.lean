import Drift.Document.Failure
import Drift.Document.OpenApi
import Drift.Document.Outline
import Drift.Value.Text

namespace Drift

def Stored.typeName (v : Stored) : String :=
  match v.value with
  | .null => "NoneType"
  | .bool _ => "bool"
  | .int _ => "int"
  | .float _ => "float"
  | .nan _ => "float"
  | .str _ => "str"
  | .bytes _ => "bytes"
  | .date _ => "date"
  | .time _ => "datetime"
  | .held id =>
    match v.store.at? (.held id) with
    | some (.list _) => "list"
    | some (.pair _ _) => "tuple"
    | some (.set _) => "set"
    | _ => "dict"

namespace Document

open Files

def readValue (t : Tree) (p : Path) : Except Failure Stored :=
  match t.readText p with
  | .error e => .error (.ofReading e)
  | .ok text => (Yaml.load t.room text).mapError .yaml

def isNamed : Value × Value → Bool
  | (.str _, _) => true
  | _ => false

def entriesOrNone (v : Stored) : Option (List (Value × Value)) :=
  match v.value with
  | .null => some []
  | value => v.store.entries? value

def readRecord {α : Type} (t : Tree) (p : Path) (read : Record.Fields → Checked α) :
    Except RecordFailure α :=
  match readValue t p with
  | .error e => .error (.unreadable e)
  | .ok v =>
    match entriesOrNone v with
    | none => .error (.notMapping v.typeName)
    | some entries =>
      if entries.all isNamed then
        match read ⟨v.store, entries⟩ with
        | .ok a => .ok a
        | .error faults => .error (.invalid faults)
      else .error .namelessField

def readOpenApi (t : Tree) (p : Path) : Except EndpointsFailure (List Endpoint) :=
  match readValue t p with
  | .error e => .error (.unreadable e)
  | .ok v =>
    match entriesOrNone v with
    | none => .error (.notOpenApi p.name)
    | some entries => (OpenApi.endpoints v.store p.text entries).mapError .schema

def readOutline (t : Tree) (p : Path) : Except EndpointsFailure (List Endpoint) :=
  match t.readText p with
  | .error e => .error (.unreadable (.ofReading e))
  | .ok text => .ok (outlineEndpoints p.text (Text.heldChars text))

end Document

end Drift
