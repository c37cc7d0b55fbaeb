import Drift.Document.Load
import Drift.Failure
import Drift.Journal.Logged
import Drift.Settings

namespace Drift.Settings

open Files

def load (t : Tree) (root : Path) : Logged Failure Settings := do
  let file := root.child Failure.settingsFile
  if ← Logged.ofExcept (Failure.ofProbe (t.probeExists file)) then
    Logged.ofExcept ((Document.readRecord t file read).mapError .settings)
  else
    Logged.note (.noSettings root)
    return {}

end Drift.Settings
