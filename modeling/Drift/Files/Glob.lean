import Drift.Files.NamePattern
import Drift.Files.Tree

namespace Drift.Files

def isMagic (cs : List Char) : Bool := cs.any fun c => c == '*' || c == '?' || c == '['

def isHidden (name : List Char) : Bool := name.head? == some '.'

/-- What stands before and after the last slash; slashes at the end of the first part go, unless it has
nothing else. -/
def splitLast (cs : List Char) : List Char × List Char :=
  match Text.cutAtLast? '/' cs with
  | none => ([], cs)
  | some (before, last) =>
    let trimmed := Text.trimRightWhile (· == '/') before
    (if trimmed.isEmpty then '/' :: before else trimmed, last)

def joinChars (dir name : List Char) : List Char :=
  if dir.isEmpty then name
  else if name.isEmpty then dir
  else if name.head? = some '/' then name
  else if dir.getLast? = some '/' then dir ++ name
  else dir ++ '/' :: name

def joinDir (dir name : List Char) : List Char :=
  if dir.isEmpty || name.head? == some '/' then name
  else if dir.getLast? = some '/' then dir ++ name
  else dir ++ '/' :: name

namespace Tree

def namesIn (t : Tree) (dir : List Char) (dirsOnly : Bool) : List (List Char) :=
  match t.list (Path.ofChars dir) with
  | .ok (place, entries) =>
    (entries.filter fun (n, e) => !dirsOnly || t.leadsToDir (place ++ [n]) e).map (·.1.toList)
  | .error _ => []

def isDirAt (t : Tree) (dir : List Char) : Bool := t.isDir (Path.ofChars dir)

def isAt (t : Tree) (cs : List Char) : Bool :=
  if "/".toList.isSuffixOf cs || "/.".toList.isSuffixOf cs then t.isDirAt cs
  else t.hasEntry (Path.ofChars cs)

def fitting (t : Tree) (dir pattern : List Char) (dirsOnly : Bool) : List (List Char) :=
  (t.namesIn dir dirsOnly).filter fun n => (isHidden pattern || !isHidden n) && matchesName pattern n

def allBelow (t : Tree) (dirsOnly : Bool) : Nat → List Char → List (List Char)
  | 0, _ => []
  | fuel + 1, dir =>
    ((t.namesIn dir dirsOnly).filter fun n => !isHidden n).flatMap fun n =>
      n :: (t.allBelow dirsOnly fuel (joinChars dir n)).map (joinChars n)

mutual

def countEntry : Entry → Nat
  | .dir entries => countEntries entries + 1
  | _ => 1

def countEntries : List (String × Entry) → Nat
  | [] => 0
  | (_, e) :: r => countEntry e + countEntries r

end

def depthBound (t : Tree) : Nat := (countEntries t.entries + 1) * (maxLinks + 2)

/-- The names that one part of a pattern stands for in a directory. The directory itself is among what
`**` stands for, even if it is not there. -/
def expandPart (t : Tree) (dir part : List Char) (dirsOnly : Bool) : List (List Char) :=
  if part = "**".toList then
    [] :: t.allBelow dirsOnly t.depthBound dir
  else if isMagic part then t.fitting dir part dirsOnly
  else if part.isEmpty then if t.isDirAt dir then [part] else []
  else if t.isAt (joinChars dir part) then [part] else []

def expand (t : Tree) (root : List Char) : Nat → List Char → Bool → List (List Char)
  | 0, _, _ => []
  | fuel + 1, pattern, dirsOnly =>
    let (dir, part) := splitLast pattern
    if !isMagic pattern then
      if part.isEmpty then if t.isDirAt (joinChars root dir) then [pattern] else []
      else if t.isAt (joinChars root pattern) then [pattern] else []
    else if dir.isEmpty then t.expandPart root part dirsOnly
    else
      let dirs := if dir ≠ pattern ∧ isMagic dir then t.expand root fuel dir true else [dir]
      dirs.flatMap fun d => (t.expandPart (joinChars root d) part dirsOnly).map (joinDir d)

def searchedDir : Nat → List Char → List Char
  | 0, _ => []
  | fuel + 1, pattern =>
    if isMagic pattern then
      let (dir, _) := splitLast pattern
      if isMagic dir then searchedDir fuel dir else dir
    else []

/-- Some path below `root` fits the pattern; the directory itself, which an empty pattern or a leading
`**` stands for as well, does not count. -/
def hasMatch (t : Tree) (root : Path) (pattern : String) : Bool :=
  let cs := pattern.toList
  let found := t.expand root.text.toList (cs.length + 1) cs false
  if cs.isEmpty || "**".toList.isPrefixOf cs then
    match found with
    | [] :: r => !r.isEmpty
    | r => !r.isEmpty
  else !found.isEmpty

def probeMatch (t : Tree) (root : Path) (pattern : String) : Except FileError Bool :=
  let dir := searchedDir (pattern.length + 1) pattern.toList
  match textTrouble? dir with
  | some trouble => .error ⟨trouble, root ++ Path.ofChars dir⟩
  | none => .ok (t.hasMatch root pattern)

end Tree

end Drift.Files
