import Drift.Decimal.Rounded
import Drift.Recognizer.Source
import Drift.Value.Text

namespace Drift.Journal

inductive Amount where
  | fixed (n : Nat)
  | given
  deriving DecidableEq, Repr

inductive Form where
  | plain | quoted | ascii | character
  | integer (base : Nat) (upper : Bool)
  | real (style : Decimal.Rounded.Style) (upper : Bool)
  deriving DecidableEq, Repr

/-- A place for a value: the name of the value if it is one of named values, on which side of a field it
stands, what stands for the sign of a positive number, whether the notation is marked and whether zeros fill
the field, the least width of the field, and the number of digits or characters. -/
structure Slot where
  name : Option String := none
  left : Bool := false
  plus : Bool := false
  blank : Bool := false
  marked : Bool := false
  zeros : Bool := false
  width : Option Amount := none
  precision : Option Amount := none
  form : Form := .plain
  deriving DecidableEq, Repr

namespace Form

def letters : List (Char × Form) :=
  [('s', plain), ('r', quoted), ('a', ascii), ('c', character),
   ('d', integer 10 false), ('i', integer 10 false), ('u', integer 10 false),
   ('o', integer 8 false), ('x', integer 16 false), ('X', integer 16 true),
   ('e', real .scientific false), ('E', real .scientific true), ('f', real .fixed false),
   ('F', real .fixed true), ('g', real .general false), ('G', real .general true)]

def isNumeric : Form → Bool
  | integer _ _ => true
  | real _ _ => true
  | _ => false

end Form

def maxWidth : Nat := 10000000

def maxPrecision : Nat := 2147483647

namespace Slot

open Recognizer

def nameFrom : Nat → List Char → Option (List Char × List Char)
  | _, [] => none
  | 0, ')' :: r => some ([], r)
  | depth + 1, ')' :: r => (nameFrom depth r).map fun (cs, r) => (')' :: cs, r)
  | depth, '(' :: r => (nameFrom (depth + 1) r).map fun (cs, r) => ('(' :: cs, r)
  | depth, c :: r => (nameFrom depth r).map fun (cs, r) => (c :: cs, r)

def valueName : Recognizer String := do
  sign '('
  let cs ← fun _ c k => (nameFrom 0 c.rest).bind fun (cs, r) => k cs ⟨some ')', r⟩
  return String.ofList cs

def isFlag (c : Char) : Bool := "-+ #0".toList.contains c

def amount : Recognizer Amount :=
  (do sign '*'; return .given)
    <|> (do
      let digits ← run1 Char.isDigit
      return .fixed ((Text.ofDigits? 10 digits).getD 0))

def formLetter : Recognizer Form := do
  let c ← char fun c => (Form.letters.lookup c).isSome
  return (Form.letters.lookup c).getD .plain

def read : Recognizer Slot := do
  sign '%'
  let name ← optional valueName
  let flags ← run isFlag
  let width ← optional amount
  let precision ← optional do
    sign '.'
    let n ← optional amount
    return n.getD (.fixed 0)
  skip (optional (char fun c => c == 'h' || c == 'l' || c == 'L'))
  let form ← formLetter
  return {
    name, width, precision, form
    left := flags.contains '-'
    plus := flags.contains '+'
    blank := flags.contains ' '
    marked := flags.contains '#'
    zeros := flags.contains '0' }

end Slot

/-- The values for the places: some in a row, all of which are needed, or some with names. The values that are
next are the last named one, or at first the mapping that holds them all. -/
structure Supply where
  store : Store
  next : List Value
  named : Option (List (Value × Value)) := none

namespace Supply

def ofValues (s : Store) (vs : List Value) : Supply :=
  match vs with
  | [v] =>
    match s.entries? v with
    | some (e :: es) => ⟨s, [v], some (e :: es)⟩
    | _ => ⟨s, [v], none⟩
  | vs => ⟨s, vs, none⟩

def select (s : Supply) (name : Option String) : Option Supply :=
  match name with
  | none => some s
  | some name => do
    let v ← Value.field name (← s.named)
    return { s with next := [v] }

def take (s : Supply) : Option (Value × Supply) :=
  match s.next with
  | v :: vs => some (v, { s with next := vs })
  | [] => none

def isSpent (s : Supply) : Bool := s.named.isSome || s.next.isEmpty

end Supply

def integer? : Value → Option Int
  | .int n => some n
  | .bool b => some b.toNat
  | _ => none

def Amount.resolve (a : Option Amount) (s : Supply) : Option (Option Int × Supply) :=
  match a with
  | none => some (none, s)
  | some (.fixed n) => some (some n, s)
  | some .given => do
    let (v, s) ← s.take
    return (some (← integer? v), s)

namespace Slot

def cased (upper : Bool) (cs : List Char) : List Char := if upper then cs.map Char.toUpper else cs

def baseMark (base : Nat) : List Char :=
  if base = 8 then "0o".toList else if base = 16 then "0x".toList else []

def asciiChar (c : Char) : List Char :=
  if c.toNat < 128 then [c]
  else if c.toNat < 0x100 then "\\x".toList ++ Text.hexChars 2 c.toNat
  else if c.toNat < 0x10000 then "\\u".toList ++ Text.hexChars 4 c.toNat
  else "\\U".toList ++ Text.hexChars 8 c.toNat

def wholeNumber? (v : Value) : Option Int :=
  match v with
  | .float x => (Decimal.Binary.ofFloat x).toFraction?.map fun (n, d) => n.tdiv d
  | v => integer? v

def realNumber? (v : Value) : Option Decimal.Binary :=
  match v with
  | .float x => some (.ofFloat x)
  | .nan _ => some .nan
  | v => do
    match Decimal.Binary.ofInt (← integer? v) with
    | .infinite _ => none
    | b => some b

def character? (v : Value) : Option Nat :=
  match v with
  | .str s =>
    match Text.codes s.toList with
    | [n] => some n
    | _ => none
  | v => do
    let n ← integer? v
    if 0 ≤ n ∧ n < 0x110000 then some n.toNat else none

/-- The sign of a number, the mark of its notation and its digits; a value that is no number has digits
only. -/
structure Parts where
  sign : List Char := []
  mark : List Char := []
  body : List Char

def numeric (s : Slot) (mark cs : List Char) : Parts :=
  match cs with
  | '-' :: r => ⟨['-'], mark, r⟩
  | r => ⟨if s.plus then ['+'] else if s.blank then [' '] else [], mark, r⟩

def integerParts (s : Slot) (base : Nat) (upper : Bool) (least : Nat) (n : Int) : Option Parts := do
  let digits ← if base = 10 then Value.intChars? n.natAbs else some (Nat.toDigits base n.natAbs)
  let digits := Decimal.zeros (least - digits.length) ++ digits
  let mark := if s.marked then baseMark base else []
  return s.numeric (cased upper mark) ((if n < 0 then ['-'] else []) ++ cased upper digits)

def defaultPlaces : Nat := 6

def withinWidth (n : Nat) : Option Nat := if n ≤ maxWidth then some n else none

def shortened (precision : Option Nat) (cs : List Char) : Parts :=
  ⟨[], [], match precision with | some n => Text.held ((Text.codes cs).take n) | none => cs⟩

def parts? (s : Slot) (store : Store) (precision : Option Nat) (v : Value) : Option Parts :=
  match s.form with
  | .plain => (store.text? v).map (shortened precision)
  | .quoted => (store.quoted? v).map (shortened precision)
  | .ascii => (store.quoted? v).map fun cs => shortened precision (cs.flatMap asciiChar)
  | .character => (character? v).map fun n => ⟨[], [], Text.heldCode n⟩
  | .integer base upper => do
    let n ← if base = 10 then wholeNumber? v else integer? v
    s.integerParts base upper (← withinWidth (precision.getD 0)) n
  | .real style upper => do
    let b ← realNumber? v
    let count := precision.getD defaultPlaces
    let count ← if style = .general && !s.marked then some count else withinWidth count
    return s.numeric [] (cased upper (Decimal.Rounded.chars style s.marked count b))

def aligned (s : Slot) (left : Bool) (width : Nat) (p : Parts) : List Char :=
  let gap := width - (p.sign.length + p.mark.length + (Text.codes p.body).length)
  if left then p.sign ++ p.mark ++ p.body ++ List.replicate gap ' '
  else if s.zeros && s.form.isNumeric then p.sign ++ p.mark ++ Decimal.zeros gap ++ p.body
  else List.replicate gap ' ' ++ p.sign ++ p.mark ++ p.body

/-- What stands in the place. A negative width puts the value to the left; a negative precision is none. -/
def fill (s : Slot) (supply : Supply) : Option (List Char × Supply) := do
  let supply ← supply.select s.name
  let (width, supply) ← Amount.resolve s.width supply
  let (precision, supply) ← Amount.resolve s.precision supply
  let (v, supply) ← supply.take
  let width := width.getD 0
  if maxWidth < width.natAbs ∨ maxPrecision < (precision.getD 0).natAbs then none
  else
    let p ← s.parts? supply.store (precision.map Int.toNat) v
    return (s.aligned (s.left || width < 0) width.natAbs p, supply)

end Slot

def piece : Recognizer (Option Slot) :=
  (do Recognizer.word "%%"; return none) <|> some <$> Slot.read

def fillPieces : List (Char ⊕ Option Slot) → Supply → Option (List Char)
  | [], supply => if supply.isSpent then some [] else none
  | .inl c :: r, supply => if c = '%' then none else (fillPieces r supply).map (c :: ·)
  | .inr none :: r, supply => (fillPieces r supply).map ('%' :: ·)
  | .inr (some slot) :: r, supply => do
    let (cs, supply) ← slot.fill supply
    return cs ++ (← fillPieces r supply)

/-- A text with the values in its places, if there is a value for each place and a place for each value. -/
def fill? (template : String) (supply : Supply) : Option String :=
  (fillPieces (piece.pieces template.toList) supply).map String.ofList

end Drift.Journal
