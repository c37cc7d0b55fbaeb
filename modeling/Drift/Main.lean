import Drift.CommandLine.Run
import Drift.Files.Edit

namespace Drift.Main

open Files

def textOf (name : String) : String := String.ofList (Text.heldChars name.toList)

def nameOf (p : Path) : String := (Text.printed? p.text).getD "\x00"

def placeOf (p : String) := (fun here => here / p) <$> IO.currentDir

def bytesOf (p : String) : IO (List UInt8) := do
  try
    return (← IO.FS.readBinFile p).toList
  catch _ => return []

def nowhere : String := "\x00"

def loadEntry (t : Tree) (p : String) : IO Tree := do
  let place ← placeOf p
  let path := Path.ofString (textOf p)
  match (← place.symlinkMetadata).type with
  | .dir => return t.putDir path
  | .symlink =>
    try
      if ← place.isDir then
        let target := textOf (← IO.FS.realPath place).toString
        return (t.putDir (Path.ofString target)).put path (.link target)
      else if ← place.pathExists then return t.put path (.file (← bytesOf p))
      else return t.put path (.link nowhere)
    catch _ => return t.put path (.link nowhere)
  | _ => return t.put path (.file (← bytesOf p))

partial def loadBelow (t : Tree) (p : String) : IO Tree := do
  let mut t ← loadEntry t p
  let place ← placeOf p
  if (← place.symlinkMetadata).type matches .dir then
    for entry in ← place.readDir do
      t ← loadBelow t entry.path.toString
  return t

/-- The tree with the directories on the way to a path and all that lies below it, if it is there. -/
def load (t : Tree) (p : Path) : IO Tree := do
  if !(← (← placeOf (nameOf p)).pathExists) then return t
  let mut t := t
  for n in List.range p.parts.length do
    t ← loadEntry t (nameOf { p with parts := p.parts.take n })
  let real := (← IO.FS.realPath (← placeOf (nameOf p))).toString
  t ← loadEntry t (nameOf p)
  loadBelow t real

def isThere (t : Tree) (p : Path) : Bool := (t.probeExists p).toOption.getD false

def loadFor (words : List String) : IO Tree := do
  let here := Path.ofString (textOf (← IO.currentDir).toString)
  let t : Tree := { start := here.parts }
  let t := t.putDir here
  match CommandLine.rootOf? words with
  | none => return t
  | some root =>
    let t ← load t root
    match (Settings.load t root).outcome with
    | .error _ => return t
    | .ok settings =>
      let t ← if isThere t (settings.foundationPath root) then pure t
        else load t (settings.foundationPath root)
      if isThere t (settings.blueprintsPath root) then return t
      else load t (settings.blueprintsPath root)

end Drift.Main

def main (words : List String) : IO UInt32 := do
  let words := words.map Drift.Main.textOf
  let t ← Drift.Main.loadFor words
  let answer := Drift.CommandLine.run t Drift.Detail.text words
  IO.eprint answer.errors
  IO.print answer.output
  match answer.crash with
  | some (.failure e) => IO.eprintln (Drift.Text.escaped (e.message Drift.Detail.text))
  | some _ => IO.eprintln "a text to be printed holds a surrogate"
  | none => pure ()
  return answer.code.toUInt32
