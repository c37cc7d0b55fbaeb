import Drift.CommandLine.Request
import Drift.Inspection
import Drift.Report.Data
import Drift.Report.Text
import Drift.Settings.Load
import Drift.Text.DecimalDigit

namespace Drift.CommandLine

open Files

/-- Why the program ends with nothing said about it: a failure, or a text with a surrogate that was to be printed, or
to be put into the JSON of a report. -/
inductive Crash where
  | failure (e : Failure)
  | unprintable
  | unwritable

structure Answer where
  code : Nat := 0
  output : String := ""
  errors : String := ""
  crash : Option Crash := none

namespace Answer

def line (s : String) : String := Terminal.plain s ++ "\n"

/-- What is printed of texts that are printed one after the other, up to the first that cannot be; and whether there
is one. -/
def print : List String → String × Bool
  | [] => ("", false)
  | s :: r =>
    match Text.printed? s with
    | some printed => (printed ++ (print r).1, (print r).2)
    | none => ("", true)

def help (s : Scope) : Answer := { output := line s.help }

def misuse (s : Scope) (m : Misuse) : Answer :=
  let usage := if m.showsUsage then s!"{s.usage}\nTry '{s.path} --help' for help.\n\n" else ""
  { code := 2, errors := Text.escaped (Terminal.plain usage ++ line s!"Error: {m.message}") }

end Answer

def maxDigits : Nat := 4300

def integer? (s : String) : Option Int :=
  let cs := (Text.trim s.toList).map Text.plainDigit
  let body := if cs.head? = some '-' ∨ cs.head? = some '+' then cs.tail else cs
  match Text.ungrouped? body with
  | none => none
  | some digits =>
    if maxDigits < digits.length then none
    else (Text.ofDigits? 10 digits).map fun n => if cs.head? = some '-' then -n else n

def depth (r : Request) : Except Misuse Int :=
  match r.value? "--depth" with
  | none => .ok 1
  | some text =>
    match integer? text with
    | none => .error (.depthUnreadable text)
    | some n => if 1 ≤ n ∧ n ≤ 3 then .ok n else .error (.depthOutOfRange n)

def namesFile (t : Tree) (text : String) : Bool :=
  t.isFile (Path.ofString text) && !"/".toList.isSuffixOf text.toList && !"/.".toList.isSuffixOf text.toList

def root (t : Tree) (r : Request) : Except Misuse Path :=
  match r.arguments with
  | [] => .ok {}
  | text :: extra =>
    if namesFile t text then .error (.rootIsFile text)
    else if extra.isEmpty then .ok (Path.ofString text)
    else .error (.tooManyArguments extra)

structure Outcome where
  texts : List String
  isData : Bool
  fine : Bool := true

abbrev Result := Logged Failure Outcome

def inspect (t : Tree) (r : Request) (depth : Int) (root : Path) : Result := do
  let settings ← Settings.load t root
  let report ← Inspection.run t Language.all {
    root
    foundation := settings.foundationPath root
    blueprints := some (settings.blueprintsPath root)
    ignoredDirs := settings.ignoredDirs
    useDescriptors := r.has "--use-descriptors"
    depth
    checkApi := r.has "--check-api"
    checkSignatures := r.has "--check-signatures" }
  let text := if r.has "--json" then report.json.text .unicode else report.text
  return {
    texts := [Answer.line text]
    isData := r.has "--json"
    fine := report.success && !(r.has "--strict" && !report.findings.isEmpty) }

def endpoints (t : Tree) (r : Request) (root : Path) : Result := do
  let settings ← Settings.load t root
  let found ← Code.endpoints t Language.all root settings.ignoredDirs
  let lines :=
    if r.has "--json" then [(Json.arr (found.map Endpoint.json)).text .ascii]
    else found.map Endpoint.listing ++ [s!"Found {Text.natText found.length} endpoints."]
  return { texts := lines.map Answer.line, isData := r.has "--json" }

def log (word : Detail → String) (r : Request) (events : List Journal.Event) : String :=
  let level := if r.has "--verbose" then Journal.debug else Journal.warning
  let journal := (Journal.State.configure? {} level Journal.defaultFormat).getD {}
  String.join (events.map fun e => journal.written (e.record word))

def answerOf (word : Detail → String) (r : Request) (result : Result) : Answer :=
  let log := log word r result.events
  match result.outcome with
  | .ok outcome =>
    let (output, stuck) := Answer.print outcome.texts
    let errors := Text.escaped log
    if stuck then
      { code := 1, output, errors, crash := some (if outcome.isData then .unwritable else .unprintable) }
    else { code := if outcome.fine then 0 else 1, output, errors }
  | .error e =>
    if e.isExpected then
      let said := Answer.line s!"Error: Inspection failed: {e.message word}\nHint: {e.hint}"
      { code := 1, errors := Text.escaped (log ++ said) }
    else { code := 1, errors := Text.escaped log, crash := some (.failure e) }

def runCommand (t : Tree) (word : Detail → String) (c : Command) (words : List String) : Answer :=
  let scope := Scope.command c
  match Request.ofWords scope words with
  | .error m => .misuse scope m
  | .ok r =>
    if r.has "--help" then .help scope
    else
      match depth r with
      | .error m => .misuse scope m
      | .ok depth =>
        match root t r with
        | .error m => .misuse scope m
        | .ok root =>
          answerOf word r (match c with
            | .inspect => inspect t r depth root
            | .endpoints => endpoints t r root)

def runUnknown (name : String) (words : List String) : Answer :=
  match Request.ofWords .program (name :: words) with
  | .error m => .misuse .program m
  | .ok r =>
    if r.has "--help" then .help .program
    else .misuse .program (.unknownCommand name (Text.closeNames name (Command.all.map (·.name))))

def run (t : Tree) (word : Detail → String) (words : List String) : Answer :=
  if words.isEmpty then { code := 2, errors := Answer.line Scope.program.help }
  else
    match Request.ofWords .program words with
    | .error m => .misuse .program m
    | .ok r =>
      if r.has "--help" then .help .program
      else
        match r.arguments with
        | [] => .misuse .program .noCommand
        | name :: rest =>
          match Command.ofName? name with
          | some c => runCommand t word c rest
          | none => runUnknown name rest

def rootOf? (words : List String) : Option Path :=
  match Request.ofWords .program words with
  | .ok { arguments := name :: rest, .. } => do
    let c ← Command.ofName? name
    let r ← (Request.ofWords (.command c) rest).toOption
    return Path.ofString (r.arguments.head?.getD ".")
  | _ => none

end Drift.CommandLine
