import Drift.Files.Reading
import Drift.Json.Data
import Drift.Record.Basic
import Drift.Yaml.Load

namespace Drift

inductive Detail where
  | encoding
  | yaml (e : Yaml.Failure)
  | faults (faults : List Fault)

namespace Detail

def place : List Fault.Step → String
  | [] => ""
  | [.field name] => name
  | [.index i] => Text.natText i
  | .field name :: r => name ++ "." ++ place r
  | .index i :: r => Text.natText i ++ "." ++ place r

def shown (text : List Char) : String := String.ofList ((Text.quoted text).take 200)

def unfitWords : Yaml.Unfit → String
  | .integer base text => s!"invalid literal for int() with base {Text.natText base}: {shown text}"
  | .digits count =>
    s!"Exceeds the limit ({Text.natText Yaml.maxDigits} digits) for integer string conversion: value has " ++
      s!"{Text.natText count} digits; use sys.set_int_max_str_digits() to increase the limit"
  | .number text => "could not convert string to float: " ++ String.ofList (Text.quoted text)
  | .year n => s!"year {Text.natText n} is out of range"
  | .month => "month must be in 1..12"
  | .day => "day is out of range for month"
  | .hour => "hour must be in 0..23"
  | .minute => "minute must be in 0..59"
  | .second => "second must be in 0..59"
  | .offset minutes =>
    "offset must be a timedelta strictly between -timedelta(hours=24) and timedelta(hours=24), not " ++
      String.ofList (Value.spanWords minutes) ++ "."
  | .code => "chr() arg not in range(0x110000)"

def yamlWords : Yaml.Failure → String
  | .malformed => "the text is not well-formed"
  | .unfit u => unfitWords u
  | .badWord => "a scalar is no truth value"
  | .emptyNumber => "a number has no digits"
  | .noTimestamp => "a scalar is no timestamp"
  | .noScalar => "a timestamp is no scalar"
  | .hugeCode => "an escape stands for no character"
  | .hugePlace => "a number has too many places"
  | .tooDeep => "collections are nested too deeply"

def text : Detail → String
  | encoding => "the bytes are no text"
  | yaml e => yamlWords e
  | faults fs => "; ".intercalate (fs.map fun f => place f.place ++ ": " ++ f.cause.message)

end Detail

namespace Document

inductive Failure where
  | file (e : Files.FileError)
  | encoding
  | yaml (e : Yaml.Failure)

def Failure.ofReading : Files.ReadError → Failure
  | .file e => file e
  | .encoding => encoding

def Failure.message (word : Detail → String) : Failure → String
  | file e => e.message
  | encoding => word .encoding
  | yaml (.unfit u) => Detail.unfitWords u
  | yaml e => word (.yaml e)

inductive RecordFailure where
  | unreadable (e : Failure)
  | notMapping (type : String)
  | namelessField
  | invalid (faults : List Fault)

def RecordFailure.isExpected : RecordFailure → Bool
  | unreadable (.file _) => true
  | unreadable (.yaml .malformed) => true
  | unreadable _ => false
  | notMapping _ => true
  | namelessField => false
  | invalid _ => true

inductive EndpointsFailure where
  | unreadable (e : Failure)
  | notOpenApi (file : String)
  | schema (e : Json.Failure)

namespace EndpointsFailure

def isExpected : EndpointsFailure → Bool
  | unreadable (.yaml .malformed) => true
  | unreadable (.yaml (.unfit _)) => true
  | unreadable (.yaml _) => false
  | unreadable _ => true
  | notOpenApi _ => true
  | schema .circular => true
  | schema .hugeNumber => true
  | schema _ => false

def schemaWords : Json.Failure → String
  | .circular => "Circular reference detected"
  | .hugeNumber =>
    s!"Exceeds the limit ({Text.natText Value.maxDigits} digits) for integer string conversion; " ++
      "use sys.set_int_max_str_digits() to increase the limit"
  | .tooDeep => "collections are nested too deeply"
  | .badKey => "a key in a schema is no scalar"
  | .unsortedKeys => "keys in a schema have no order"

def message (word : Detail → String) : EndpointsFailure → String
  | unreadable e => e.message word
  | notOpenApi file => s!"{file} is not an OpenAPI document"
  | schema e => schemaWords e

end EndpointsFailure

end Document

end Drift
