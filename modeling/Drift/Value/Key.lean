import Std.Data.HashMap
import Drift.Value.Basic

namespace Drift

deriving instance Hashable for Date

inductive Key where
  | null
  | int (n : Int)
  | float (bits : UInt64)
  | nan (mark : Nat)
  | text (s : String)
  | bytes (bs : List UInt8)
  | date (d : Date)
  | localTime (instant : Int)
  | worldTime (instant : Int)
  deriving DecidableEq, Hashable

namespace Value

def key? : Value → Option Key
  | null => some .null
  | bool b => some (.int b.toNat)
  | int n => some (.int n)
  | float x =>
    match (Decimal.Binary.ofFloat x).toInt? with
    | some n => some (.int n)
    | none => some (.float x.toBits)
  | nan mark => some (.nan mark)
  | str s => some (.text s)
  | bytes bs => some (.bytes bs)
  | date d => some (.date d)
  | time t => some (if t.offset.isSome then .worldTime t.instant else .localTime t.instant)
  | held _ => none

end Value

structure Entries where
  entries : Array (Value × Value) := #[]
  places : Std.HashMap Key Nat := {}

def Entries.insert (es : Entries) (key : Key) (k v : Value) : Entries :=
  match es.places[key]? with
  | some i => { es with entries := es.entries.modify i fun e => (e.1, v) }
  | none => ⟨es.entries.push (k, v), es.places.insert key es.entries.size⟩

def Entries.toList (es : Entries) : List (Value × Value) := es.entries.toList

end Drift
