import Drift.CommandLine.Command
import Drift.Text.Number
import Drift.Text.Quoted
import Drift.Text.Similar
import Drift.Text.Split

namespace Drift.CommandLine

inductive Misuse where
  | unknownSwitch (name : String) (close : List String)
  | unknownCommand (name : String) (close : List String)
  | noCommand
  | valueMissing (name : String)
  | valueUnwanted (name : String)
  | depthUnreadable (text : String)
  | depthOutOfRange (n : Int)
  | rootIsFile (text : String)
  | tooManyArguments (extra : List String)
  deriving DecidableEq, Repr

namespace Misuse

def quoted (s : String) : String := String.ofList (Text.quoted s.toList)

def suggestion (close : List String) : String :=
  match close.map quoted with
  | [] => ""
  | [c] => s!" Did you mean {c}?"
  | cs => " (Did you mean one of: " ++ ", ".intercalate cs ++ "?)"

def message : Misuse → String
  | unknownSwitch name close => s!"No such option {quoted name}." ++ suggestion close
  | unknownCommand name close => s!"No such command {quoted name}." ++ suggestion close
  | noCommand => "Missing command."
  | valueMissing name => s!"Option {quoted name} requires an argument."
  | valueUnwanted name => s!"Option {quoted name} does not take a value."
  | depthUnreadable text => s!"Invalid value for '--depth': {quoted text} is not a valid integer range."
  | depthOutOfRange n => s!"Invalid value for '--depth': {Text.intText n} is not in the range 1<=x<=3."
  | rootIsFile text => s!"Invalid value for '[ROOT]': Directory {quoted text} is a file."
  | tooManyArguments [extra] => s!"Got unexpected extra argument ({extra})"
  | tooManyArguments extra => "Got unexpected extra arguments (" ++ " ".intercalate extra ++ ")"

def showsUsage : Misuse → Bool
  | valueMissing _ => false
  | valueUnwanted _ => false
  | _ => true

end Misuse

/-- The options that were given, each with its value if it has one, and the arguments. -/
structure Request where
  given : List (String × String) := []
  arguments : List String := []
  deriving DecidableEq, Repr

namespace Request

def has (r : Request) (name : String) : Bool := r.given.any (·.1 == name)

def value? (r : Request) (name : String) : Option String := r.given.reverse.lookup name

/-- A word of the command line: an argument, options, an option with its value, or an option that takes
its value from the next word. -/
inductive Item where
  | argument
  | options (names : List String)
  | option (name value : String)
  | awaiting (name : String)

def letters (switches : List Switch) : List Char → Except Misuse (List String)
  | [] => .ok []
  | c :: cs =>
    match switches.find? (·.letter == some c) with
    | some s => (letters switches cs).map (s.name :: ·)
    | none => .error (.unknownSwitch (String.ofList ['-', c]) [])

def optionItem (switches : List Switch) (word : List Char) : Except Misuse Item :=
  let (name, value?) := match Text.cutAtFirst? '=' word with
    | some (name, value) => (String.ofList name, some (String.ofList value))
    | none => (String.ofList word, none)
  match switches.find? (·.name == name) with
  | some s =>
    match s.value, value? with
    | some _, some v => .ok (.option name v)
    | some _, none => .ok (.awaiting name)
    | none, some _ => .error (.valueUnwanted name)
    | none, none => .ok (.options [name])
  | none =>
    if "--".toList.isPrefixOf word then
      .error (.unknownSwitch name (Text.closeNames name (switches.map (·.name))))
    else (letters switches word.tail).map .options

def item (switches : List Switch) (word : String) : Except Misuse Item :=
  match word.toList with
  | ['-'] => .ok .argument
  | '-' :: cs => optionItem switches ('-' :: cs)
  | _ => .ok .argument

def give (names : List String) (r : Request) : Request :=
  { r with given := names.map (fun n => (n, "")) ++ r.given }

/-- Reads the words. `mixed` allows options behind arguments; a lone `--` ends them. An option may be
waiting for its value. -/
def read (switches : List Switch) (mixed : Bool) : Option String → List String → Except Misuse Request
  | some name, [] => .error (.valueMissing name)
  | some name, v :: ws => (read switches mixed none ws).map fun r => { r with given := (name, v) :: r.given }
  | none, [] => .ok {}
  | none, w :: ws =>
    if w = "--" then .ok { arguments := ws }
    else
      match item switches w with
      | .error e => .error e
      | .ok .argument =>
        if mixed then (read switches mixed none ws).map fun r => { r with arguments := w :: r.arguments }
        else .ok { arguments := w :: ws }
      | .ok (.options names) => (read switches mixed none ws).map (give names)
      | .ok (.option name v) =>
        (read switches mixed none ws).map fun r => { r with given := (name, v) :: r.given }
      | .ok (.awaiting name) => read switches mixed (some name) ws

def ofWords (s : Scope) (words : List String) : Except Misuse Request :=
  read s.switches (s != .program) none words

end Request

end Drift.CommandLine
