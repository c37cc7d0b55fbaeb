import Drift.Decimal.Shortest

namespace Drift.Decimal

structure Layout where
  least : Int
  most : Int
  wholeTail : String
  exponentDigits : Nat
  infinity : String
  nan : String

/-- Positional from the fourth place behind the point to the sixteenth before it; a whole number ends
in `.0`; an exponent has a sign and two digits. -/
def Layout.plain : Layout := ⟨-3, 16, ".0", 2, "inf", "nan"⟩

def Layout.json : Layout := { Layout.plain with infinity := "Infinity", nan := "NaN" }

def zeros (n : Nat) : List Char := List.replicate n '0'

def Layout.positional (l : Layout) (digits : List Char) (point : Int) : List Char :=
  if point ≤ 0 then "0.".toList ++ zeros (-point).toNat ++ digits
  else if digits.length ≤ point.toNat then
    digits ++ zeros (point.toNat - digits.length) ++ l.wholeTail.toList
  else digits.take point.toNat ++ '.' :: digits.drop point.toNat

def Layout.exponent (l : Layout) (e : Int) : List Char :=
  let digits := Nat.toDigits 10 e.natAbs
  (if e < 0 then ['-'] else ['+']) ++ zeros (l.exponentDigits - digits.length) ++ digits

def Layout.scientific (l : Layout) (digits : List Char) (point : Int) : List Char :=
  digits.take 1 ++ (if digits.length = 1 then [] else '.' :: digits.drop 1) ++ 'e' :: l.exponent (point - 1)

def Layout.magnitude (l : Layout) (m : Nat) (q : Int) : List Char :=
  let d := shortest m q
  if d.coefficient = 0 then '0' :: l.wholeTail.toList
  else
    let digits := Nat.toDigits 10 d.coefficient
    let point := d.exponent + digits.length
    if l.least ≤ point ∧ point ≤ l.most then l.positional digits point else l.scientific digits point

def Layout.text (l : Layout) (x : Float) : String :=
  match Binary.ofFloat x with
  | .nan => l.nan
  | .infinite negative => (if negative then "-" else "") ++ l.infinity
  | .finite negative m q => String.ofList ((if negative then ['-'] else []) ++ l.magnitude m q)

end Drift.Decimal
