import Drift.Files.Path
import Drift.Room
import Drift.Text.Quoted
import Drift.Text.Utf8

namespace Drift.Files

inductive Entry where
  | file (bytes : List UInt8)
  | dir (entries : List (String × Entry))
  | link (target : String)

/-- Why a path leads to nothing, or to nothing that can be read. A path with a NUL is no name at all, and one with a
surrogate has no bytes, unless the surrogate is a byte that was no text. -/
inductive Trouble where
  | absent | notDirectory | isDirectory | tooLong | linkLoop | unnameable | unencodable
  deriving DecidableEq, Repr

namespace Trouble

def number : Trouble → Nat
  | absent => 2
  | notDirectory => 20
  | isDirectory => 21
  | unnameable => 22
  | unencodable => 22
  | tooLong => 36
  | linkLoop => 40

def words : Trouble → String
  | absent => "No such file or directory"
  | notDirectory => "Not a directory"
  | isDirectory => "Is a directory"
  | unnameable => "Invalid argument"
  | unencodable => "Invalid argument"
  | tooLong => "File name too long"
  | linkLoop => "Too many levels of symbolic links"

def isOfText : Trouble → Bool
  | unnameable => true
  | unencodable => true
  | _ => false

end Trouble

structure FileError where
  trouble : Trouble
  path : Path
  deriving DecidableEq, Repr

def FileError.message (e : FileError) : String :=
  s!"[Errno {Text.natText e.trouble.number}] {e.trouble.words}: {String.ofList (Text.quoted e.path.text.toList)}"

/-- The outermost directory, the place in it that relative paths start from, and the room in which its files are read. -/
structure Tree where
  entries : List (String × Entry) := []
  start : List String := []
  room : Room := {}

namespace Entry

def isDir : Entry → Bool
  | dir _ => true
  | _ => false

def isFile : Entry → Bool
  | file _ => true
  | _ => false

/-- The entry under names that are followed one after the other, links not followed. -/
def below? : Entry → List String → Option Entry
  | e, [] => some e
  | dir entries, n :: ns => (entries.lookup n).bind (·.below? ns)
  | _, _ :: _ => none

end Entry

namespace Tree

def top (t : Tree) : Entry := .dir t.entries

def isByte (n : Nat) : Bool := 0xDC80 ≤ n && n < 0xDD00

def byteCount (name : String) : Nat :=
  (Text.codes name.toList).foldl (fun count n => count + if isByte n then 1 else (Char.ofNat n).utf8Size) 0

def maxName : Nat := 255

def maxPath : Nat := 4095

/-- Where parts lead from a place in the tree. What a link leads to is left to `onLink`; a link that
comes last is followed only if `last` holds. -/
def followParts (t : Tree) (last : Bool) (onLink : List String → List String → Except Trouble (List String × Entry)) :
    List String → List String → Except Trouble (List String × Entry)
  | place, [] =>
    match t.top.below? place with
    | some e => .ok (place, e)
    | none => .error .absent
  | place, part :: rest =>
    match t.top.below? place with
    | some (.dir entries) =>
      if part = ".." then followParts t last onLink place.dropLast rest
      else if maxName < byteCount part then .error .tooLong
      else
        match entries.lookup part with
        | none => .error .absent
        | some (.link target) =>
          if rest.isEmpty && !last then .ok (place ++ [part], .link target)
          else
            let path := Path.ofString target
            onLink (if path.isAbsolute then [] else place) (path.parts ++ rest)
        | some _ => followParts t last onLink (place ++ [part]) rest
    | some _ => .error .notDirectory
    | none => .error .absent

def follow (t : Tree) (last : Bool) : Nat → List String → List String → Except Trouble (List String × Entry)
  | 0 => t.followParts last fun _ _ => .error .linkLoop
  | links + 1 => t.followParts last (t.follow last links)

def maxLinks : Nat := 40

def origin (t : Tree) (p : Path) : List String := if p.isAbsolute then [] else t.start

def textTrouble? (path : List Char) : Option Trouble :=
  if (Text.codes path).any fun n => Text.isSurrogate n && !isByte n then some .unencodable
  else if path.contains '\x00' then some .unnameable
  else none

def locate (t : Tree) (last : Bool) (p : Path) : Except Trouble (List String × Entry) :=
  match textTrouble? p.text.toList with
  | some trouble => .error trouble
  | none =>
    if maxPath < byteCount p.text then .error .tooLong
    else t.follow last maxLinks (t.origin p) p.parts

def find (t : Tree) (p : Path) : Except Trouble (List String × Entry) := t.locate true p

def probe (t : Tree) (f : Entry → Bool) (p : Path) : Except FileError Bool :=
  match t.find p with
  | .ok (_, e) => .ok (f e)
  | .error .tooLong => .error ⟨.tooLong, p⟩
  | .error _ => .ok false

def probeExists (t : Tree) (p : Path) : Except FileError Bool := t.probe (fun _ => true) p

def probeDir (t : Tree) (p : Path) : Except FileError Bool := t.probe Entry.isDir p

def probeFile (t : Tree) (p : Path) : Except FileError Bool := t.probe Entry.isFile p

def isDir (t : Tree) (p : Path) : Bool :=
  match t.find p with
  | .ok (_, e) => e.isDir
  | .error _ => false

def isFile (t : Tree) (p : Path) : Bool :=
  match t.find p with
  | .ok (_, e) => e.isFile
  | .error _ => false

def hasEntry (t : Tree) (p : Path) : Bool :=
  match t.locate false p with
  | .ok _ => true
  | .error _ => false

def read (t : Tree) (p : Path) : Except FileError (List UInt8) :=
  match t.find p with
  | .ok (_, .file bytes) => .ok bytes
  | .ok _ => .error ⟨.isDirectory, p⟩
  | .error e => .error ⟨e, p⟩

def list (t : Tree) (p : Path) : Except FileError (List String × List (String × Entry)) :=
  match t.find p with
  | .ok (place, .dir entries) => .ok (place, entries)
  | .ok _ => .error ⟨.notDirectory, p⟩
  | .error e => .error ⟨e, p⟩

def leadsToDir (t : Tree) (place : List String) (e : Entry) : Bool :=
  match e with
  | .dir _ => true
  | .file _ => false
  | .link _ =>
    match t.follow true maxLinks [] place with
    | .ok (_, e) => e.isDir
    | .error _ => false

end Tree

def sortNames (names : List String) : List String := names.mergeSort fun a b => !(b < a)

end Drift.Files
