import Drift.Files.Tree

namespace Drift.Files

structure Visit where
  name : String
  isDir : Bool
  files : List Path

def visitOrder (a b : Visit) : Bool := !(b.name < a.name)

def gather (visits : List Visit) : List Path :=
  let sorted := visits.mergeSort visitOrder
  (sorted.filter fun v => !v.isDir).flatMap (·.files) ++ (sorted.filter (·.isDir)).flatMap (·.files)

mutual

def filesBelow (t : Tree) (pruned : String → Bool) (place : List String) (path : Path) : Entry → List Path
  | .dir entries => gather (visitAll t pruned place path entries)
  | _ => []

def visitAll (t : Tree) (pruned : String → Bool) (place : List String) (path : Path) :
    List (String × Entry) → List Visit
  | [] => []
  | (name, e) :: r =>
    let here := place ++ [name]
    let visit : Visit :=
      if t.leadsToDir here e then
        ⟨name, true, if pruned name then [] else filesBelow t pruned here (path.child name) e⟩
      else ⟨name, false, [path.child name]⟩
    visit :: visitAll t pruned place path r

end

def Tree.walk (t : Tree) (root : Path) (pruned : String → Bool) : Except FileError (List Path) :=
  (t.list root).map fun (place, entries) => filesBelow t pruned place root (.dir entries)

def isPruned (ignored : List String) (name : String) : Bool :=
  ignored.contains name || name.toList.head? == some '.'

end Drift.Files
