import Drift.Text.Split

namespace Drift.Files

/-- A path: how many slashes it starts with (none, one or two), and its parts. No part is empty or a
single dot. -/
structure Path where
  slashes : Nat := 0
  parts : List String := []
  deriving DecidableEq, Repr

namespace Path

def partsOf (cs : List Char) : List String :=
  ((Text.splitAtChar '/' cs).filter fun p => p ≠ [] ∧ p ≠ ['.']).map String.ofList

def ofChars (cs : List Char) : Path where
  slashes :=
    let n := (cs.takeWhile (· == '/')).length
    if 2 < n then 1 else n
  parts := partsOf cs

def ofString (s : String) : Path := ofChars s.toList

def text (p : Path) : String :=
  if p.slashes = 0 ∧ p.parts = [] then "."
  else String.ofList (List.replicate p.slashes '/') ++ "/".intercalate p.parts

def isAbsolute (p : Path) : Bool := p.slashes != 0

def append (p q : Path) : Path := if q.isAbsolute then q else { p with parts := p.parts ++ q.parts }

instance : Append Path := ⟨append⟩

def child (p : Path) (entry : String) : Path := { p with parts := p.parts ++ [entry] }

def name (p : Path) : String := p.parts.getLast?.getD ""

end Path

def baseName (s : String) : String :=
  match Text.cutAtLast? '/' s.toList with
  | some (_, last) => String.ofList last
  | none => s

def splitExtension (s : String) : String × String :=
  match Text.cutAtLast? '.' s.toList with
  | some (stem, ext) =>
    if stem.isEmpty || ext.isEmpty then (s, "") else (String.ofList stem, String.ofList ('.' :: ext))
  | none => (s, "")

end Drift.Files
