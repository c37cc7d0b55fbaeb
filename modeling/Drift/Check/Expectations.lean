import Drift.Check.Signatures
import Drift.Code
import Drift.Foundation

namespace Drift.Check

open Files

def expectations (t : Tree) (detectors : List Language) (root foundation : Path) (ignored : List String) :
    Logged Failure (List Finding) := do
  let expected ← Foundation.expectations t foundation
  if expected.isEmpty then
    Logged.note .nothingExpected
    return []
  else
    let found ← Code.signatures t detectors root ignored
    return expected.flatMap fun (m, e) => function m e found

end Drift.Check
