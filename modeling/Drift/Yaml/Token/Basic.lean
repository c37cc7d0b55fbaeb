namespace Drift.Yaml

/-- What is wrong with a scalar that is no value of its type: it is no integer of the base or has too many
digits, it is no number, it is no date of the calendar or no time of day, or its offset is a day or more; or
an escape stands for no character. -/
inductive Unfit where
  | integer (base : Nat) (text : List Char)
  | digits (count : Nat)
  | number (text : List Char)
  | year (n : Nat) | month | day | hour | minute | second
  | offset (minutes : Int)
  | code
  deriving DecidableEq, Repr

/-- Why a text yields no value: it is not well-formed; a scalar does not fit its tag, is no truth value,
is empty where a number should be, is no timestamp at all, or is not even a scalar; an escape or the places
of a number go beyond all limits; or collections are nested too deeply. -/
inductive Failure where
  | malformed
  | unfit (u : Unfit)
  | badWord | emptyNumber | noTimestamp | noScalar | hugeCode | hugePlace | tooDeep
  deriving DecidableEq, Repr

def maxDigits : Nat := 4300

inductive Token where
  | version (major : Nat)
  | tagHandle (handle base : List Char)
  | otherDirective
  | documentStart | documentEnd | streamEnd
  | blockSequence | blockMapping | blockEnd
  | flowSequence | flowSequenceEnd | flowMapping | flowMappingEnd
  | item | comma | key | value
  | alias (name : List Char)
  | anchor (name : List Char)
  | tag (handle : Option (List Char)) (suffix : List Char)
  | scalar (codes : List Nat) (plain : Bool)
  deriving DecidableEq, Repr

end Drift.Yaml
