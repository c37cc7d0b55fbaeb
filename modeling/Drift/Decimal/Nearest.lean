import Drift.Decimal.Binary

namespace Drift.Decimal

def roundDiv (n d : Nat) : Nat :=
  let k := n / d
  if 2 * (n % d) < d then k else if d < 2 * (n % d) then k + 1 else k + k % 2

namespace Binary

def leastPower : Int := -1074

def greatestPower : Int := 971

def overPower (n d : Nat) (q : Int) : Nat × Nat := (n * twoTo (-q).toNat, d * twoTo q.toNat)

def lastPower (n d : Nat) : Int :=
  let q : Int := (n.log2 : Int) - d.log2 - 52
  let (a, b) := overPower n d q
  max leastPower (if a / b < twoTo 52 then q - 1 else q)

def nearest (negative : Bool) (n d : Nat) : Binary :=
  if n = 0 then finite negative 0 leastPower
  else
    let q := lastPower n d
    let (a, b) := overPower n d q
    let m := roundDiv a b
    let (m, q) := if m = twoTo 53 then (twoTo 52, q + 1) else (m, q)
    if greatestPower < q then infinite negative else finite negative m q

def ofInt (n : Int) : Binary := nearest (n < 0) n.natAbs 1

def ofDecimal (negative : Bool) (c : Nat) (e : Int) : Binary :=
  let count : Int := (Nat.toDigits 10 c).length
  if c = 0 ∨ e + count < -330 then finite negative 0 leastPower
  else if 330 < e + count then infinite negative
  else nearest negative (c * tenTo e.toNat) (tenTo (-e).toNat)

def toBits : Binary → Nat
  | nan => 2047 * twoTo 52 + twoTo 51
  | infinite negative => negative.toNat * twoTo 63 + 2047 * twoTo 52
  | finite negative m q =>
    let field := if m < twoTo 52 then 0 else (q - leastPower + 1).toNat
    negative.toNat * twoTo 63 + field * twoTo 52 + m % twoTo 52

def negated : Binary → Binary
  | nan => nan
  | infinite negative => infinite !negative
  | finite negative m q => finite (!negative) m q

def toFloat (b : Binary) : Float := Float.ofBits (UInt64.ofNat b.toBits)

end Binary

end Drift.Decimal
