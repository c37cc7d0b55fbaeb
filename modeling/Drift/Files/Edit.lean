import Drift.Files.Tree

namespace Drift.Files

def setEntry (name : String) (e : Entry) : List (String × Entry) → List (String × Entry)
  | [] => [(name, e)]
  | (n, old) :: r => if n = name then (n, e) :: r else (n, old) :: setEntry name e r

namespace Entry

def put (e : Entry) (new : Entry) : List String → Entry
  | [] => new
  | n :: ns =>
    let entries := match e with
      | dir entries => entries
      | _ => []
    dir (setEntry n (((entries.lookup n).getD (dir [])).put new ns) entries)

def remove (e : Entry) : List String → Entry
  | [] => e
  | [n] =>
    match e with
    | dir entries => dir (entries.filter fun (m, _) => m != n)
    | e => e
  | n :: ns =>
    match e with
    | dir entries =>
      match entries.lookup n with
      | some below => dir (setEntry n (below.remove ns) entries)
      | none => dir entries
    | e => e

end Entry

namespace Tree

/-- A directory of which nothing else is known than what is in it. Relative paths start from it, and its
parent holds no name that a path can have. -/
def alone (entries : List (String × Entry)) : Tree := { entries := [("", .dir entries)], start := [""] }

/-- The place of a path: links in front of its last part are followed, and what is missing is taken as
written. -/
def placeOf (t : Tree) (p : Path) : List String :=
  match t.find { p with parts := p.parts.dropLast } with
  | .ok (place, _) => place ++ p.parts.getLast?.toList
  | .error _ => t.origin p ++ p.parts

def ofTop (t : Tree) (e : Entry) : Tree :=
  match e with
  | .dir entries => { t with entries }
  | _ => t

def put (t : Tree) (p : Path) (e : Entry) : Tree := t.ofTop (t.top.put e (t.placeOf p))

def putDir (t : Tree) (p : Path) : Tree := if t.isDir p then t else t.put p (.dir [])

def remove (t : Tree) (p : Path) : Tree := t.ofTop (t.top.remove (t.placeOf p))

end Tree

end Drift.Files
