import Drift.Failure
import Drift.Files.Glob
import Drift.Finding
import Drift.Signature

namespace Drift.Check

open Files

def missingFile (moduleName : String) (path : Path) (expected : String) : Finding where
  kind := .missingFile
  subject := moduleName
  message := s!"Expected file '{expected}' not found in module '{moduleName}'"
  severity := .warning
  remedy := s!"Create file '{(path ++ Path.ofString expected).text}' or update module descriptor"

def missingDir (moduleName : String) (path : Path) (expected : String) : Finding where
  kind := .missingFile
  subject := moduleName
  message := s!"Expected directory '{expected}' not found in module '{moduleName}'"
  severity := .warning
  remedy := s!"Create directory '{(path ++ Path.ofString expected).text}' or update module descriptor"

def missingMatch (moduleName pattern : String) : Finding where
  kind := .missingFile
  subject := moduleName
  message := s!"No files matching pattern '{pattern}' in module '{moduleName}'"
  severity := .info
  remedy := s!"Add files matching pattern '{pattern}' or update module descriptor"

def moduleFiles (t : Tree) (moduleName : String) (d : Descriptor) (path : Path) :
    Except Failure (List Finding) := Failure.ofProbe do
  let files ← d.expectedFiles.filterM fun f => return !(← t.probeExists (path ++ Path.ofString f))
  let dirs ← d.expectedDirs.filterM fun f => return !(← t.probeDir (path ++ Path.ofString f))
  let patterns ← d.patterns.filterM fun p => return !(← t.probeMatch path p)
  return files.map (missingFile moduleName path) ++ dirs.map (missingDir moduleName path) ++
    patterns.map (missingMatch moduleName)

end Drift.Check
