import Drift.Recognizer.Source
import Drift.Text.Trim

namespace Drift.Yaml

inductive Tag where
  | null | bool | int | float | timestamp | binary | str | seq | map | set | omap | pairs | merge | value
  | other
  deriving DecidableEq, Repr

namespace Tag

def standardBase : List Char := "tag:yaml.org,2002:".toList

def standardNames : List (String × Tag) :=
  [("null", null), ("bool", bool), ("int", int), ("float", float), ("timestamp", timestamp),
   ("binary", binary), ("str", str), ("seq", seq), ("map", map), ("set", set), ("omap", omap),
   ("pairs", pairs), ("merge", merge), ("value", value)]

def ofName (name : List Char) : Tag :=
  if standardBase.isPrefixOf name then
    (standardNames.lookup (String.ofList (name.drop standardBase.length))).getD other
  else other

def trueWords : List String := ["yes", "Yes", "YES", "true", "True", "TRUE", "on", "On", "ON"]

def falseWords : List String := ["no", "No", "NO", "false", "False", "FALSE", "off", "Off", "OFF"]

def nullWords : List String := ["", "~", "null", "Null", "NULL"]

open Recognizer

def plus : Recognizer Unit := skip (optional (char fun c => c == '+' || c == '-'))

def isDigitOrGap (c : Char) : Bool := c.isDigit || c == '_'

def isLaterDigit (c : Char) : Bool := '1' ≤ c && c ≤ '9'

def isSexagesimalTen (c : Char) : Bool := '0' ≤ c && c ≤ '5'

def sexagesimal : Recognizer Unit := do
  sign ':'
  skip (optional (char isSexagesimalTen))
  skip (char Char.isDigit)

def integerForm : Recognizer Unit := do
  plus
  (do word "0b"; skip (run1 fun c => c == '0' || c == '1' || c == '_'))
    <|> (do sign '0'; skip (run1 fun c => ('0' ≤ c && c ≤ '7') || c == '_'))
    <|> sign '0'
    <|> (do skip (char isLaterDigit); skip (run isDigitOrGap))
    <|> (do word "0x"; skip (run1 fun c => c.isDigit || ('a' ≤ c && c ≤ 'f') || ('A' ≤ c && c ≤ 'F') || c == '_'))
    <|> (do skip (char isLaterDigit); skip (run isDigitOrGap); sexagesimal; repeated sexagesimal)
  atEnd

def exponent : Recognizer Unit := do
  skip (char fun c => c == 'e' || c == 'E')
  skip (char fun c => c == '+' || c == '-')
  skip (run1 Char.isDigit)

def wholeDigits : Recognizer Unit := do
  skip (char Char.isDigit)
  skip (run isDigitOrGap)

def floatForm : Recognizer Unit := do
  (do plus; wholeDigits; sign '.'; skip (run isDigitOrGap); skip (optional exponent))
    <|> (do sign '.'; wholeDigits; skip (optional exponent))
    <|> (do plus; wholeDigits; sexagesimal; repeated sexagesimal; sign '.'; skip (run isDigitOrGap))
    <|> (do plus; skip (oneOf [".inf", ".Inf", ".INF"]))
    <|> skip (oneOf [".nan", ".NaN", ".NAN"])
  atEnd

def digit : Recognizer Char := char Char.isDigit

def twoDigits : Recognizer (List Char) := do return [← digit, ← digit]

def oneOrTwoDigits : Recognizer (List Char) := do
  let d ← digit
  let e ← optional digit
  return d :: e.toList

structure Clock where
  hour : List Char
  minute : List Char
  second : List Char
  fraction : List Char
  /-- None without an offset; else its sign, none for universal time, and its hours and minutes. -/
  zone : Option (Option Char × List Char × List Char)

def zone : Recognizer (Option Char × List Char × List Char) :=
  (do sign 'Z'; return (none, [], []))
    <|> (do
      let s ← char fun c => c == '+' || c == '-'
      let hours ← oneOrTwoDigits
      let minutes ← optional do sign ':'; twoDigits
      return (some s, hours, minutes.getD []))

def isGap (c : Char) : Bool := c == ' ' || c == '\t'

def clock : Recognizer Clock := do
  skip (char fun c => c == 'T' || c == 't') <|> skip (run1 isGap)
  let hour ← oneOrTwoDigits
  sign ':'
  let minute ← twoDigits
  sign ':'
  let second ← twoDigits
  let fraction ← optional do sign '.'; run Char.isDigit
  let z ← optional do skip (run isGap); zone
  return { hour, minute, second, fraction := fraction.getD [], zone := z }

def fourDigits : Recognizer (List Char) := do return [← digit, ← digit, ← digit, ← digit]

def timestampParts : Recognizer (List Char × List Char × List Char × Option Clock) := do
  let year ← fourDigits
  sign '-'
  let month ← oneOrTwoDigits
  sign '-'
  let day ← oneOrTwoDigits
  let c ← optional clock
  atEnd
  return (year, month, day, c)

def timestampForm : Recognizer Unit :=
  (do skip fourDigits; sign '-'; skip twoDigits; sign '-'; skip twoDigits; atEnd)
    <|> (do
      skip fourDigits
      sign '-'
      skip oneOrTwoDigits
      sign '-'
      skip oneOrTwoDigits
      skip clock
      atEnd)

def ofForm (text : List Char) : Tag :=
  let cs := if text.length = 1 then text else Text.dropTail ['\n'] text
  let w := String.ofList cs
  if nullWords.contains w then null
  else if trueWords.contains w || falseWords.contains w then bool
  else if floatForm.accepts cs then float
  else if integerForm.accepts cs then int
  else if cs = "<<".toList then merge
  else if timestampForm.accepts cs then timestamp
  else if cs = ['='] then value
  else str

end Tag

end Drift.Yaml
