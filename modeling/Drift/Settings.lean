import Drift.Files.Tree
import Drift.Record.Basic

namespace Drift

open Files

def defaultIgnored : List String :=
  ["node_modules", "dist", "build", "vendor", ".git", ".env", "bin", "obj", ".idea", ".vscode", "target"]

def defaultSpecDir : String := ".driftscan"

structure Settings where
  projectName : String := "My App"
  specDir : String := defaultSpecDir
  ignoredDirs : List String := defaultIgnored
  deriving DecidableEq, Repr

namespace Settings

def foundationPath (s : Settings) (root : Path) : Path :=
  (root ++ Path.ofString s.specDir).child "foundation"

def blueprintsPath (s : Settings) (root : Path) : Path :=
  (root ++ Path.ofString s.specDir).child "blueprints"

def ignoredNames (s : Settings) : List String := sortNames s.ignoredDirs.eraseDups

def notBlank (s : String) : Option String :=
  if (Text.trim s.toList).isEmpty then some "cannot be empty" else none

def notAbsolute (s : String) : Option String :=
  if (Path.ofString s).isAbsolute then some s!"must be a relative path, got: {s}" else none

open Record in
def read (f : Fields) : Checked Settings :=
  Settings.mk
    <$> optional f "project_name" "My App" (fun v => (text v).check notBlank)
    <*> optional f "spec_dir" defaultSpecDir (fun v => ((text v).check notBlank).check notAbsolute)
    <*> optional f "ignore_dirs" defaultIgnored (nullAs [] (Record.list f.store text))

end Settings

/-- What to inspect. Depth 2 adds the contracts of the API, depth 3 the signatures as well. -/
structure Options where
  root : Path
  foundation : Path
  blueprints : Option Path := none
  ignoredDirs : List String := defaultIgnored
  useDescriptors : Bool := false
  depth : Int := 1
  checkApi : Bool := false
  checkSignatures : Bool := false
  deriving DecidableEq, Repr

namespace Options

def blueprintsPath (o : Options) : Path :=
  o.blueprints.getD ((o.root.child defaultSpecDir).child "blueprints")

def depthInRange (n : Int) : Option String :=
  if 1 ≤ n ∧ n ≤ 3 then none else some s!"depth must be 1, 2 or 3, got {Text.intText n}"

def path (v : Value) : Checked Path :=
  match v with
  | .str s => pure (Path.ofString s)
  | _ => .fault .notPath

open Record in
def read (f : Fields) : Checked Options :=
  Options.mk
    <$> required f "root_dir" path
    <*> required f "foundation_path" path
    <*> Record.optional f "blueprints_path" none (orNull path)
    <*> Record.optional f "ignore_dirs" defaultIgnored (Record.list f.store text)
    <*> Record.optional f "use_descriptors" false boolean
    <*> Record.optional f "depth" 1 (fun v => (integer v).check depthInRange)
    <*> Record.optional f "check_api" false boolean
    <*> Record.optional f "check_signatures" false boolean

end Options

end Drift
