import Drift.Document.Load
import Drift.Failure
import Drift.Files.Walk
import Drift.Journal.Logged

namespace Drift.Documentation

open Files

def isOpenApiName (name : String) : Bool := name == "openapi.yaml" || name == "openapi.yml"

def isOutlineName (name : String) : Bool := Text.lower name.toList == "architecture.md".toList

def files (t : Tree) (blueprints : Path) : Except Failure (List Path) := do
  if ← Failure.ofProbe (t.probeDir blueprints) then
    match t.walk blueprints fun _ => false with
    | .ok paths => return paths
    | .error _ => return []
  else return []

def openApiFiles (files : List Path) : List Path := files.filter fun p => isOpenApiName p.name

def outlineFiles (files : List Path) : List Path :=
  files.filter fun p => !isOpenApiName p.name && isOutlineName p.name

def passOver (p : Path) (read : Except Document.EndpointsFailure (List Endpoint)) :
    Logged Failure (List Endpoint) :=
  match read with
  | .ok found => return found
  | .error e =>
    if e.isExpected then do
      Logged.note (.documentSkipped p e)
      return []
    else Logged.ofExcept (.error (.documentation e))

def readAll (read : Path → Except Document.EndpointsFailure (List Endpoint)) :
    List Path → Logged Failure (List Endpoint)
  | [] => return []
  | p :: r => do
    let here ← passOver p (read p)
    let there ← readAll read r
    return here ++ there

def blueprintEndpoints (t : Tree) (blueprints : Path) : Logged Failure (List Endpoint) := do
  let files ← files t blueprints
  let described ← readAll (Document.readOpenApi t) (openApiFiles files)
  let outlined ← readAll (Document.readOutline t) (outlineFiles files)
  return described ++ outlined

def foundationOutline (foundation : Path) : Path := foundation.child "ARCHITECTURE.md"

def fallback (t : Tree) (foundation : Path) : Logged Failure (List Endpoint) := do
  let outline := foundationOutline foundation
  if ← Logged.ofExcept (Failure.ofProbe (t.probeFile outline)) then
    passOver outline (Document.readOutline t outline)
  else return []

def endpoints (t : Tree) (blueprints foundation : Path) : Logged Failure (List Endpoint) := do
  let found ← blueprintEndpoints t blueprints
  let documented ← if found.isEmpty then fallback t foundation else pure found
  Logged.note (.documentedFound documented.length)
  return documented

end Drift.Documentation
