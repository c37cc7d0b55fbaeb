import Drift.Check.Endpoints
import Drift.Code
import Drift.Documentation

namespace Drift.Check

open Files

def contracts (t : Tree) (detectors : List Language) (root blueprints foundation : Path)
    (ignored : List String) : Logged Failure (List Finding) := do
  let documented ← Documentation.endpoints t blueprints foundation
  if documented.isEmpty then
    Logged.note .nothingDocumented
    return []
  else return endpoints documented (← Code.endpoints t detectors root ignored)

end Drift.Check
