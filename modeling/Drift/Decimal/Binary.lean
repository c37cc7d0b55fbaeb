import Drift.Decimal.Power

namespace Drift.Decimal

inductive Binary where
  | nan
  | infinite (negative : Bool)
  | finite (negative : Bool) (m : Nat) (q : Int)
  deriving DecidableEq, Repr

namespace Binary

def ofBits (bits : Nat) : Binary :=
  let negative := bits / twoTo 63 % 2 == 1
  let exponent : Nat := bits / twoTo 52 % twoTo 11
  let fraction : Nat := bits % twoTo 52
  if exponent = 2047 then if fraction = 0 then infinite negative else nan
  else if exponent = 0 then finite negative fraction (-1074)
  else finite negative (twoTo 52 + fraction) ((exponent : Int) - 1075)

def ofFloat (x : Float) : Binary := ofBits x.toBits.toNat

def signed (negative : Bool) (n : Nat) : Int := if negative then -n else n

def toInt? : Binary → Option Int
  | nan => none
  | infinite _ => none
  | finite negative m (.ofNat q) => some (signed negative (m * twoTo q))
  | finite negative m (.negSucc q) =>
    if m % twoTo (q + 1) = 0 then some (signed negative (m / twoTo (q + 1))) else none

def toFraction? : Binary → Option (Int × Nat)
  | nan => none
  | infinite _ => none
  | finite negative m (.ofNat q) => some (signed negative (m * twoTo q), 1)
  | finite negative m (.negSucc q) => some (signed negative m, twoTo (q + 1))

end Binary

def Binary.lt (a b : Binary) : Bool :=
  match a, b with
  | .nan, _ => false
  | _, .nan => false
  | .infinite n, .infinite n' => n && !n'
  | .infinite n, .finite .. => n
  | .finite .., .infinite n => !n
  | .finite .., .finite .. =>
    match a.toFraction?, b.toFraction? with
    | some (x, d), some (y, e) => x * e < y * d
    | _, _ => false

end Drift.Decimal
