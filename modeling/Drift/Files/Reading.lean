import Drift.Files.Tree
import Drift.Text.Codes
import Drift.Text.Lines

namespace Drift.Files

inductive ReadError where
  | file (e : FileError)
  | encoding
  deriving DecidableEq, Repr

namespace Tree

def readText (t : Tree) (p : Path) : Except ReadError (List Char) :=
  match t.read p with
  | .error e => .error (.file e)
  | .ok bytes =>
    match Text.decodeUtf8? bytes with
    | some cs => .ok (Text.unifyNewlines cs)
    | none => .error .encoding

def readSource (t : Tree) (p : Path) : Except FileError (List Char) :=
  (t.read p).map fun bytes => Text.heldChars (Text.unifyNewlines (Text.decodeUtf8Replacing bytes))

end Tree

end Drift.Files
