import Drift.Decimal.Binary
import Drift.Room
import Drift.Text.Codes
import Drift.Value.Time

namespace Drift

inductive Value where
  | null
  | bool (b : Bool)
  | int (n : Int)
  /-- A number or an infinity. -/
  | float (x : Float)
  /-- What is not a number. It equals itself alone, and the mark tells one from another. -/
  | nan (mark : Nat)
  | str (s : String)
  | bytes (bs : List UInt8)
  | date (d : Date)
  | time (t : DateTime)
  /-- A collection of the store. -/
  | held (id : Nat)

instance : Inhabited Value := ⟨.null⟩

inductive Collection where
  | list (items : List Value)
  | pair (first second : Value)
  | set (items : List Value)
  | map (entries : List (Value × Value))

structure Store where
  cells : Array Collection := #[]
  room : Room := {}

structure Stored where
  store : Store
  value : Value

namespace Value

def text? : Value → Option String
  | str s => some s
  | _ => none

def codes : Value → List Nat
  | str s => Text.codes s.toList
  | _ => []

def number? : Value → Option Decimal.Binary
  | bool b => some (.finite false b.toNat 0)
  | int n => some (.finite (n < 0) n.natAbs 0)
  | float x => some (.ofFloat x)
  | nan _ => some .nan
  | _ => none

end Value

namespace Store

def at? (s : Store) : Value → Option Collection
  | .held id => s.cells[id]?
  | _ => none

def entries? (s : Store) (v : Value) : Option (List (Value × Value)) :=
  match s.at? v with
  | some (.map entries) => some entries
  | _ => none

def items? (s : Store) (v : Value) : Option (List Value) :=
  match s.at? v with
  | some (.list items) => some items
  | _ => none

def add (s : Store) (c : Collection) : Value × Store := (.held s.cells.size, { s with cells := s.cells.push c })

def set (s : Store) (id : Nat) (c : Collection) : Store := { s with cells := s.cells.setIfInBounds id c }

end Store

namespace Value

def field (name : String) : List (Value × Value) → Option Value
  | [] => none
  | (str s, v) :: es => if s = name then some v else field name es
  | _ :: es => field name es

end Value

end Drift
