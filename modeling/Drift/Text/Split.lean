import Drift.Text.Trim

namespace Drift.Text

def splitAtChar (sep : Char) : List Char → List (List Char)
  | [] => [[]]
  | c :: r =>
    if c = sep then [] :: splitAtChar sep r
    else
      match splitAtChar sep r with
      | [] => [[c]]
      | l :: ls => (c :: l) :: ls

def cutAtFirst? (sep : Char) (cs : List Char) : Option (List Char × List Char) :=
  match cs.dropWhile (· != sep) with
  | [] => none
  | _ :: after => some (cs.takeWhile (· != sep), after)

def cutAtLast? (sep : Char) (cs : List Char) : Option (List Char × List Char) :=
  (cutAtFirst? sep cs.reverse).map fun (after, before) => (before.reverse, after.reverse)

def words : List Char → List (List Char)
  | [] => []
  | c :: r =>
    if isBlank c then words r
    else
      match r with
      | [] => [[c]]
      | d :: _ =>
        if isBlank d then [c] :: words r
        else
          match words r with
          | [] => [[c]]
          | w :: ws => (c :: w) :: ws

def headWord? (cs : List Char) : Option (List Char × List Char) :=
  let body := cs.dropWhile isBlank
  let rest := (body.dropWhile fun c => !isBlank c).dropWhile isBlank
  if rest.isEmpty then none else some (body.takeWhile fun c => !isBlank c, rest)

/-- Every occurrence of `old`, from left to right and without overlap, becomes `new`. The second
argument counts characters of an occurrence that are still to be skipped. -/
def replaceFrom (old new : List Char) : Nat → List Char → List Char
  | _, [] => []
  | k + 1, _ :: r => replaceFrom old new k r
  | 0, c :: r =>
    if old.isPrefixOf (c :: r) then new ++ replaceFrom old new (old.length - 1) r
    else c :: replaceFrom old new 0 r

def replace (old new cs : List Char) : List Char :=
  if old.isEmpty then cs else replaceFrom old new 0 cs

def contains (part : List Char) : List Char → Bool
  | [] => part.isEmpty
  | c :: r => part.isPrefixOf (c :: r) || contains part r

def cutAtText? (part : List Char) : List Char → Option (List Char × List Char)
  | [] => if part.isEmpty then some ([], []) else none
  | c :: r =>
    if part.isPrefixOf (c :: r) then some ([], c :: r)
    else (cutAtText? part r).map fun (before, after) => (c :: before, after)

def joinWith (sep : List Char) (parts : List (List Char)) : List Char := sep.intercalate parts

end Drift.Text
