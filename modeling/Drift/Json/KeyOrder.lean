import Drift.Value.Basic

namespace Drift.Json

inductive KeyClass where
  | number | text | bytes | date | localTime | worldTime | other
  deriving DecidableEq, Repr

def KeyClass.of : Value → KeyClass
  | .bool _ => number
  | .int _ => number
  | .float _ => number
  | .nan _ => number
  | .str _ => text
  | .bytes _ => bytes
  | .date _ => date
  | .time t => if t.offset.isSome then worldTime else localTime
  | _ => other

def isNaN : Value → Bool
  | .nan _ => true
  | _ => false

def keyBefore (a b : Value) : Bool :=
  match a.number?, b.number? with
  | some x, some y => x.lt y
  | _, _ =>
    match a, b with
    | .bytes s, .bytes t => s.map UInt8.toNat < t.map UInt8.toNat
    | .date d, .date e => d.ordinal < e.ordinal
    | .time t, .time u => t.instant < u.instant
    | _, _ => a.codes < b.codes

section Bisection

variable {α : Type} (before : α → α → Bool)

def bisect (a : α) (sorted : List α) (low high : Nat) : Nat :=
  if low < high then
    let middle := (low + high) / 2
    if sorted[middle]?.any (before a) then bisect a sorted low middle
    else bisect a sorted (middle + 1) high
  else low
termination_by high - low

def insertByBisection (sorted : List α) (a : α) : List α :=
  sorted.insertIdx (bisect before a sorted 0 sorted.length) a

def runFrom (down : Bool) : α → List α → List α × List α
  | _, [] => ([], [])
  | a, b :: r =>
    if before b a = down then
      let (run, rest) := runFrom down b r
      (b :: run, rest)
    else ([], b :: r)

/-- Sorted by bisection behind the first run that goes down, which is turned, or that does not. It is an
order also where some cannot be compared. -/
def sortByBisection : List α → List α
  | a :: b :: r =>
    let down := before b a
    let (run, rest) := runFrom before down a (b :: r)
    rest.foldl (insertByBisection before) (if down then (a :: run).reverse else a :: run)
  | as => as

end Bisection

def sortEntries? {α : Type} (entries : List (Value × α)) : Option (List (Value × α)) :=
  match entries with
  | [] => some []
  | [e] => some [e]
  | (k, _) :: _ =>
    if entries.all fun (k', _) => KeyClass.of k' = KeyClass.of k then
      if entries.any fun (k', _) => isNaN k' then some (sortByBisection (fun a b => keyBefore a.1 b.1) entries)
      else some (entries.mergeSort fun a b => !keyBefore b.1 a.1)
    else none

end Drift.Json
