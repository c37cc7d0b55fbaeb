namespace Drift.Text

def commonStart : List Char → List Char → Nat
  | a :: as, b :: bs => if a = b then commonStart as bs + 1 else 0
  | _, _ => 0

/-- The longest of the common blocks at the given places, the first of several: where it starts in either
text, and its length. -/
def longestBlock (a b : List Char) : Nat × Nat × Nat :=
  let places := (List.range a.length).flatMap fun i => (List.range b.length).map fun j => (i, j)
  places.foldl (fun best (i, j) =>
    let n := commonStart (a.drop i) (b.drop j)
    if best.2.2 < n then (i, j, n) else best) (0, 0, 0)

def sharedWithin : Nat → List Char → List Char → Nat
  | 0, _, _ => 0
  | fuel + 1, a, b =>
    let (i, j, n) := longestBlock a b
    if n = 0 then 0
    else
      sharedWithin fuel (a.take i) (b.take j) + n + sharedWithin fuel (a.drop (i + n)) (b.drop (j + n))

def shared (a b : List Char) : Nat := sharedWithin a.length a b

def areClose (a b : List Char) : Bool := 6 * (a.length + b.length) ≤ 20 * shared a b

def closerFirst (word a b : List Char) : Bool :=
  let x := shared a word * (b.length + word.length)
  let y := shared b word * (a.length + word.length)
  y < x || (x == y && String.ofList b ≤ String.ofList a)

def closeNames (word : String) (names : List String) : List String :=
  let near := names.filter fun n => areClose n.toList word.toList
  let best := (near.mergeSort fun a b => closerFirst word.toList a.toList b.toList).take 3
  best.mergeSort fun a b => a ≤ b

end Drift.Text
