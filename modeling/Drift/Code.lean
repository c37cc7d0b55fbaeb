import Drift.Failure
import Drift.Files.Walk
import Drift.Journal.Logged
import Drift.Source.Extract

namespace Drift.Code

open Files

def base (t : Tree) (root : Path) : Except Failure Path := do
  let inner := root.child "src"
  return if ← Failure.ofProbe (t.probeDir inner) then inner else root

def unlisted (e : FileError) : Failure :=
  if e.trouble.isOfText then .unreachable e else .codeUnlisted e

/-- The directories that are modules, with their paths, in the order of their names. -/
def modules (t : Tree) (root : Path) (ignored : List String) : Except Failure (List (String × Path)) := do
  let base ← base t root
  let (_, entries) ← (t.list base).mapError unlisted
  let dirs ← (sortNames (entries.map (·.1))).filterM fun n => Failure.ofProbe (t.probeDir (base.child n))
  return (dirs.filter fun n => !isPruned ignored n).map fun n => (n, base.child n)

def files (t : Tree) (root : Path) (ignored : List String) : Except Failure (List Path) := do
  let _ ← Failure.ofProbe (t.probeDir root)
  (t.walk root (isPruned ignored)).mapError fun _ => .rootless root

def sources (t : Tree) (detectors : List Language) (root : Path) (ignored : List String) :
    Except Failure (List (Language × Path)) :=
  (files t root ignored).map fun paths =>
    paths.filterMap fun p => (Language.among? detectors p.text).map fun l => (l, p)

def countOne (l : Language) : List (Language × Nat) → List (Language × Nat)
  | [] => [(l, 1)]
  | (m, n) :: r => if m = l then (m, n + 1) :: r else (m, n) :: countOne l r

def counts (languages : List Language) : List (Language × Nat) :=
  languages.foldl (fun done l => countOne l done) []

def languages (t : Tree) (detectors : List Language) (root : Path) (ignored : List String) :
    Except Failure (List (Language × Nat)) :=
  (sources t detectors root ignored).map fun found => counts (found.map (·.1))

def extractFrom {α : Type} (t : Tree) (extract : Language → Path → List Char → Logged Failure (List α))
    (source : Language × Path) : Logged Failure (List α) :=
  match t.readSource source.2 with
  | .ok text => extract source.1 source.2 text
  | .error e => do
    Logged.note (.fileSkipped e)
    return []

def extractAll {α : Type} (t : Tree) (extract : Language → Path → List Char → Logged Failure (List α)) :
    List (Language × Path) → Logged Failure (List α)
  | [] => return []
  | s :: r => do
    let here ← extractFrom t extract s
    let there ← extractAll t extract r
    return here ++ there

def fileEndpoints (l : Language) (p : Path) (text : List Char) : Logged Failure (List Endpoint) :=
  return l.endpoints p.text text

def fileSignatures (l : Language) (p : Path) (text : List Char) : Logged Failure (List Signature) :=
  match l.signatures p.text text with
  | .ok found => return found
  | .error e => do
    Logged.note (.signaturesSkipped p e)
    return []

def endpoints (t : Tree) (detectors : List Language) (root : Path) (ignored : List String) :
    Logged Failure (List Endpoint) := do
  let found ← extractAll t fileEndpoints (← sources t detectors root ignored)
  Logged.note (.endpointsFound found.length)
  return found

def signatures (t : Tree) (detectors : List Language) (root : Path) (ignored : List String) :
    Logged Failure (List Signature) := do
  let found ← extractAll t fileSignatures (← sources t detectors root ignored)
  Logged.note (.signaturesFound found.length)
  return found

end Drift.Code
