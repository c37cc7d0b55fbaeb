import Drift.Decimal.Layout
import Drift.Text.Quoted
import Drift.Value.Basic

namespace Drift.Value

def quotedByte (b : UInt8) : List Char :=
  if b = 9 then "\\t".toList
  else if b = 10 then "\\n".toList
  else if b = 13 then "\\r".toList
  else if 32 ≤ b ∧ b < 127 then [Char.ofNat b.toNat]
  else "\\x".toList ++ Text.hexChars 2 b.toNat

def quotedBytes (bs : List UInt8) : List Char :=
  let q : UInt8 := if bs.contains 39 && !bs.contains 34 then 34 else 39
  let mark := Char.ofNat q.toNat
  'b' :: mark :: bs.flatMap (fun b => if b = q ∨ b = 92 then ['\\', Char.ofNat b.toNat] else quotedByte b) ++ [mark]

def dateWords (d : Date) : List Char :=
  Text.natChars d.year ++ ", ".toList ++ Text.natChars d.month ++ ", ".toList ++ Text.natChars d.day

def spanWords (minutes : Int) : List Char :=
  let days := minutes / 1440
  let seconds := minutes % 1440 * 60
  let parts := [("days=", days), ("seconds=", seconds)].filter fun p => p.2 != 0
  let words := parts.map fun (name, n) => name.toList ++ Text.intChars n
  "datetime.timedelta(".toList ++
    (if words.isEmpty then ['0'] else List.intercalate ", ".toList words) ++ [')']

def offsetWords (minutes : Int) : List Char :=
  if minutes = 0 then "datetime.timezone.utc".toList
  else "datetime.timezone(".toList ++ spanWords minutes ++ [')']

def timeWords (t : DateTime) : List Char :=
  let comma := ", ".toList
  "datetime.datetime(".toList ++ dateWords t.date ++ comma ++ Text.natChars t.hour ++ comma ++
    Text.natChars t.minute ++
    (if t.second = 0 ∧ t.micro = 0 then [] else comma ++ Text.natChars t.second) ++
    (if t.micro = 0 then [] else comma ++ Text.natChars t.micro) ++
    (match t.offset with
      | some m => comma ++ "tzinfo=".toList ++ offsetWords m
      | none => []) ++ [')']

def maxDigits : Nat := 4300

def intChars? (n : Int) : Option (List Char) :=
  if Decimal.tenTo maxDigits ≤ n.natAbs then none else some (Text.intChars n)

def quotedChars? : Value → Option (List Char)
  | null => some "None".toList
  | bool b => some (if b then "True" else "False").toList
  | int n => intChars? n
  | float x => some (Decimal.Layout.plain.text x).toList
  | nan _ => some "nan".toList
  | str s => some (Text.quoted s.toList)
  | bytes bs => some (quotedBytes bs)
  | date d => some ("datetime.date(".toList ++ dateWords d ++ [')'])
  | time t => some (timeWords t)
  | held _ => none

def chars? : Value → Option (List Char)
  | str s => some s.toList
  | date d => some d.chars
  | time t => some t.chars
  | v => v.quotedChars?

def slot? : Value → Option Int
  | int n => some (if n = -1 then -2 else n)
  | bool b => some (if b then 1 else 0)
  | _ => none

/-- The slots of a set: eight for up to four items, else the least power of two above twice their number. -/
def slotCount (items : Nat) : Nat := if items ≤ 4 then 8 else Decimal.twoTo ((2 * items).log2 + 1)

/-- The items of a set as they are listed: integers by their remainders by the number of slots, others in
the order in which they came. -/
def listed (items : List Value) : List Value :=
  let slot (v : Value) : Int := v.slot?.getD 0 % slotCount items.length
  if items.all (·.slot?.isSome) then items.mergeSort fun a b => slot a ≤ slot b else items

theorem listed_perm (items : List Value) : (listed items).Perm items := by
  unfold listed
  dsimp only
  split
  · exact List.mergeSort_perm _ _
  · exact List.Perm.refl _

end Drift.Value

namespace Drift.Store

def bracketed (opening closing : String) (parts : List (List Char)) : List Char :=
  opening.toList ++ List.intercalate ", ".toList parts ++ closing.toList

def quotedChars? (s : Store) : Nat → Value → Option (List Char)
  | 0, _ => none
  | fuel + 1, v =>
    match s.at? v with
    | none => v.quotedChars?
    | some (.list items) => (items.mapM (s.quotedChars? fuel)).map (bracketed "[" "]")
    | some (.pair a b) => do return bracketed "(" ")" [← s.quotedChars? fuel a, ← s.quotedChars? fuel b]
    | some (.set []) => some "set()".toList
    | some (.set items) => ((Value.listed items).mapM (s.quotedChars? fuel)).map (bracketed "\x7b" "\x7d")
    | some (.map entries) =>
      (entries.mapM fun (k, w) => do
        return (← s.quotedChars? fuel k) ++ ": ".toList ++ (← s.quotedChars? fuel w)).map
          (bracketed "\x7b" "\x7d")

/-- The text of a value as it stands inside of a collection; none if it has too many digits or contains
itself. -/
def quoted? (s : Store) (v : Value) : Option (List Char) := s.quotedChars? (s.cells.size + 1) v

def text? (s : Store) (v : Value) : Option (List Char) :=
  match v with
  | .held _ => s.quoted? v
  | v => v.chars?

end Drift.Store
