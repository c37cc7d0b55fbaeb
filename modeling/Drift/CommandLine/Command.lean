namespace Drift.CommandLine

/-- An option: its name, its letter, what it calls its value if it takes one, and the lines of its help. -/
structure Switch where
  name : String
  letter : Option Char := none
  value : Option String := none
  help : List String
  deriving DecidableEq, Repr

namespace Switch

def showHelp : Switch := { name := "--help", help := ["Show this message and exit."] }

def json (what : String) : Switch := { name := "--json", help := [s!"Print {what} as JSON."] }

def verbose : Switch := { name := "--verbose", letter := some 'v', help := ["Log progress to stderr."] }

def strict : Switch := { name := "--strict", help := ["Exit with status 1 on any warning."] }

def useDescriptors : Switch :=
  { name := "--use-descriptors", help := ["Check <module>.module.yaml expectations."] }

def depth : Switch where
  name := "--depth"
  value := some "INTEGER RANGE"
  help := ["Depth of analysis (1=structure, 2=+API, 3=+signatures).", "[1<=x<=3]"]

def checkApi : Switch := { name := "--check-api", help := ["Validate API contracts regardless of depth."] }

def checkSignatures : Switch :=
  { name := "--check-signatures", help := ["Validate function signatures regardless of depth."] }

end Switch

inductive Command where
  | inspect | endpoints
  deriving DecidableEq, Repr

namespace Command

def all : List Command := [.endpoints, .inspect]

def name : Command → String
  | inspect => "inspect"
  | endpoints => "endpoints"

def ofName? (s : String) : Option Command := all.find? (·.name == s)

def summary : Command → String
  | inspect => "Compare foundation specs and API docs with the code in ROOT."
  | endpoints => "List the HTTP endpoints found in the code in ROOT."

end Command

inductive Scope where
  | program
  | command (c : Command)
  deriving DecidableEq, Repr

namespace Scope

def switches : Scope → List Switch
  | program => [.showHelp]
  | command .inspect =>
    [.json "the result", .strict, .useDescriptors, .depth, .checkApi, .checkSignatures, .verbose, .showHelp]
  | command .endpoints => [.json "endpoints", .verbose, .showHelp]

def path : Scope → String
  | program => "driftscan"
  | command c => "driftscan " ++ c.name

def usage (s : Scope) : String :=
  match s with
  | program => s!"Usage: {s.path} [OPTIONS] COMMAND [ARGS]..."
  | command _ => s!"Usage: {s.path} [OPTIONS] [ROOT]"

def summary : Scope → String
  | program => "driftscan: detect drift between foundation specs and code."
  | command c => c.summary

def table (rows : List (String × List String)) : List String :=
  let width := (rows.map (·.1.length)).foldl max 0 + 2
  let gap (n : Nat) : String := String.ofList (List.replicate n ' ')
  rows.flatMap fun (name, lines) =>
    match lines with
    | [] => ["  " ++ name]
    | l :: r => ("  " ++ name ++ gap (width - name.length) ++ l) :: r.map fun l => gap (width + 2) ++ l

def row (s : Switch) : String × List String :=
  let names := match s.letter with
    | some c => "-" ++ c.toString ++ ", " ++ s.name
    | none => s.name
  (match s.value with | some v => names ++ " " ++ v | none => names, s.help)

def help (s : Scope) : String :=
  let commands := match s with
    | program => ["", "Commands:"] ++ table (Command.all.map fun c => (c.name, [c.summary]))
    | command _ => []
  "\n".intercalate
    ([s.usage, "", "  " ++ s.summary, "", "Options:"] ++ table (s.switches.map row) ++ commands)

end Scope

end Drift.CommandLine
