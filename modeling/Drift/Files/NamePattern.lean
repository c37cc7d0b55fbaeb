import Drift.Text.Codes

namespace Drift.Files

inductive SetItem where
  | one (n : Nat)
  | range (low high : Nat)
  deriving DecidableEq, Repr

def SetItem.holds (n : Nat) : SetItem → Bool
  | .one m => n == m
  | .range low high => low ≤ n && n ≤ high

inductive PatternItem where
  | code (n : Nat)
  | any
  | anyRun
  | set (negated : Bool) (items : List SetItem)
  deriving DecidableEq, Repr

def isSign (c : Char) (n : Nat) : Bool := n == c.toNat

/-- Pieces of a set between the hyphens that join two code points to a range. The number counts the
code points that cannot be such a hyphen. -/
def rangePieces : Nat → List Nat → List (List Nat)
  | _, [] => [[]]
  | k, n :: r =>
    if k = 0 ∧ isSign '-' n then [] :: rangePieces 2 r
    else
      match rangePieces (k - 1) r with
      | [] => [[n]]
      | p :: ps => (n :: p) :: ps

def closePieces (pieces : List (List Nat)) : List (List Nat) :=
  match pieces.reverse with
  | [] :: p :: ps => ((p ++ ['-'.toNat]) :: ps).reverse
  | _ => pieces

def dropEmptyRanges : List (List Nat) → List (List Nat)
  | [] => []
  | p :: ps =>
    match dropEmptyRanges ps with
    | [] => [p]
    | q :: qs =>
      match p.getLast?, q.head? with
      | some x, some y => if y < x then (p.dropLast ++ q.tail) :: qs else p :: q :: qs
      | _, _ => p :: q :: qs

def joinPieces : List (List Nat) → List (Nat × Bool)
  | [] => []
  | [p] => p.map (·, false)
  | p :: ps => p.map (·, false) ++ ('-'.toNat, true) :: joinPieces ps

def setItems : List (Nat × Bool) → List SetItem
  | (x, _) :: (_, true) :: (y, _) :: r => .range x y :: setItems r
  | (x, _) :: r => .one x :: setItems r
  | [] => []

def setOf (body : List Nat) : PatternItem :=
  let pieces :=
    if body.any (isSign '-') then
      dropEmptyRanges (closePieces (rangePieces (if body.head?.any (isSign '!') then 2 else 1) body))
    else [body]
  -- a `!` negates the set also if it comes first only because an empty range in front of it is gone
  match joinPieces pieces with
  | (n, hyphen) :: r =>
    if isSign '!' n then if r.isEmpty then .any else .set true (setItems r)
    else .set false (setItems ((n, hyphen) :: r))
  | [] => .set false []

def cutSet? (ns : List Nat) : Option (List Nat × List Nat) :=
  let start := if ns.head?.any (isSign '!') then 1 else 0
  let start := if (ns.drop start).head?.any (isSign ']') then start + 1 else start
  let body := (ns.drop start).takeWhile fun n => !isSign ']' n
  match (ns.drop start).dropWhile fun n => !isSign ']' n with
  | [] => none
  | _ :: r => some (ns.take start ++ body, r)

def itemsUpTo : Nat → List Nat → List PatternItem
  | 0, _ => []
  | _, [] => []
  | k + 1, n :: r =>
    if isSign '*' n then .anyRun :: itemsUpTo k r
    else if isSign '?' n then .any :: itemsUpTo k r
    else if isSign '[' n then
      match cutSet? r with
      | some (body, r') => setOf body :: itemsUpTo k r'
      | none => .code n :: itemsUpTo k r
    else .code n :: itemsUpTo k r

def patternItems (pattern : List Nat) : List PatternItem := itemsUpTo pattern.length pattern

def PatternItem.holds (n : Nat) : PatternItem → Bool
  | .code m => n == m
  | .any => true
  | .anyRun => true
  | .set negated items => items.any (·.holds n) != negated

def anyLater : List Bool → List Bool
  | [] => []
  | b :: r =>
    let later := anyLater r
    (b || later.headD false) :: later

/-- For each suffix of a text, whether it starts with a code point that fits the item and goes on with a
marked suffix. -/
def oneThen (p : PatternItem) : List Nat → List Bool → List Bool
  | n :: r, _ :: marks => (p.holds n && marks.headD false) :: oneThen p r marks
  | _, _ => [false]

def fittingSuffixes : List PatternItem → List Nat → List Bool
  | [], ns => ns.map (fun _ => false) ++ [true]
  | .anyRun :: ps, ns => anyLater (fittingSuffixes ps ns)
  | p :: ps, ns => oneThen p ns (fittingSuffixes ps ns)

def matchesItems (ps : List PatternItem) (ns : List Nat) : Bool := (fittingSuffixes ps ns).headD false

/-- Whether a pattern describes the whole of a name: `*` any run of code points, `?` one, and `[...]` one of a set. -/
def matchesName (pattern name : List Char) : Bool := matchesItems (patternItems (Text.codes pattern)) (Text.codes name)

example : matchesName "[b-a!].go".toList "x.go".toList = true := by decide

end Drift.Files
