import Drift.Journal.Template
import Drift.Text.DecimalDigit

namespace Drift.Journal

def debug : Int := 10

def info : Int := 20

def warning : Int := 30

def levelName (level : Int) : String :=
  if level = 10 then "DEBUG"
  else if level = 20 then "INFO"
  else if level = 30 then "WARNING"
  else if level = 40 then "ERROR"
  else if level = 50 then "CRITICAL"
  else "Level " ++ Text.intText level

def defaultFormat : String := "[%(levelname)s] %(name)s: %(message)s"

structure Record where
  level : Int
  source : String
  message : String
  deriving DecidableEq, Repr

structure State where
  format : Option String := none
  threshold : Int := 0
  deriving DecidableEq, Repr

def State.effective (s : State) : Int := if s.threshold = 0 then warning else s.threshold

def isOwn (source : String) : Bool := source == "driftscan" || "driftscan.".toList.isPrefixOf source.toList

def messageFormat : String := "%(message)s"

def isFormLetter (c : Char) : Bool := "diouxefgcrsaDIOUXEFGCRSA%\u0130\u0131\u017f".toList.contains c

open Recognizer in
def fieldPlace : Recognizer Unit := do
  let number : Recognizer Unit := sign '*' <|> skip (run1 fun c => (Text.decimalValue? c).isSome)
  word "%("
  skip (run1 Text.isWord)
  sign ')'
  skip (run Slot.isFlag)
  skip (optional number)
  skip (optional do sign '.'; number)
  skip (char isFormLetter)

def isFormat (format : String) : Bool := (fieldPlace.search format.toList).isSome

def formatLine? (format : String) (r : Record) : Option String :=
  fill? format {
    store := {}
    next := []
    named := some [(.str "levelname", .str (levelName r.level)), (.str "name", .str r.source),
      (.str "message", .str r.message)] }

def State.configure? (s : State) (level : Int) (format : String) : Option State :=
  match s.format with
  | some _ => some { s with threshold := level }
  | none =>
    let format := if format.isEmpty then messageFormat else format
    if isFormat format then some ⟨some format, level⟩ else none

def State.written (s : State) (r : Record) : String :=
  match s.format with
  | some format =>
    if isOwn r.source && s.effective ≤ r.level && 0 < r.level then
      match formatLine? format r with
      | some line => line ++ "\n"
      | none => ""
    else ""
  | none => ""

def message? (template : String) (store : Store) (args : List Value) : Option String :=
  if args.isEmpty then some template else fill? template (.ofValues store args)

end Drift.Journal
