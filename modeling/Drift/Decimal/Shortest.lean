import Drift.Decimal.Binary

namespace Drift.Decimal

structure Digits where
  coefficient : Nat
  exponent : Int
  deriving DecidableEq, Repr

structure Rounding where
  low : Nat
  value : Nat
  high : Nat
  q : Int
  closed : Bool
  deriving DecidableEq, Repr

/-- The interval of `m · 2 ^ q`. Below a power of two the doubles lie twice as close. -/
def Rounding.of (m : Nat) (q : Int) : Rounding where
  low := if m = twoTo 52 ∧ q ≠ -1074 then 4 * m - 1 else 4 * m - 2
  value := 4 * m
  high := 4 * m + 2
  q := q - 2
  closed := m % 2 == 0

def scaled (n : Nat) (q e : Int) : Nat × Nat :=
  (n * twoTo q.toNat * tenTo (-e).toNat, twoTo (-q).toNat * tenTo e.toNat)

def Rounding.holds (r : Rounding) (k : Nat) (e : Int) : Bool :=
  let (low, d) := scaled r.low r.q e
  let (high, d') := scaled r.high r.q e
  if r.closed then low ≤ k * d && k * d' ≤ high else low < k * d && k * d' < high

def Rounding.hit? (r : Rounding) (e : Int) : Option Nat :=
  let (v, d) := scaled r.value r.q e
  let k := v / d
  let below := r.holds k e && k != 0
  let above := r.holds (k + 1) e
  if below && above then
    let rest := v % d
    if 2 * rest < d then some k
    else if d < 2 * rest then some (k + 1)
    else some (if k % 2 = 0 then k else k + 1)
  else if below then some k
  else if above then some (k + 1)
  else none

def magnitude (n : Nat) (q : Int) : Int :=
  let (v, d) := scaled n q 0
  if d ≤ v then (Nat.toDigits 10 (v / d)).length
  else
    -- the quotient `d / v` has as many digits as there are zeros, or one more
    let zeros := (Nat.toDigits 10 (d / v)).length
    if d ≤ v * tenTo (zeros - 1) then 1 - (zeros - 1 : Nat)
    else if d ≤ v * tenTo zeros then 1 - (zeros : Nat)
    else -(zeros : Nat)

def Rounding.search (r : Rounding) (top : Int) : Nat → Nat → Option Digits
  | _, 0 => none
  | n, fuel + 1 =>
    let e := top - n
    match r.hit? e with
    | some k => some ⟨k, e⟩
    | none => r.search top (n + 1) fuel

def Digits.strip (d : Digits) : Nat → Digits
  | 0 => d
  | fuel + 1 =>
    if d.coefficient % 10 = 0 ∧ d.coefficient ≠ 0 then
      Digits.strip ⟨d.coefficient / 10, d.exponent + 1⟩ fuel
    else d

def shortest (m : Nat) (q : Int) : Digits :=
  if m = 0 then ⟨0, 0⟩
  else
    let r := Rounding.of m q
    ((r.search (magnitude r.value r.q) 1 18).getD ⟨m, 0⟩).strip 20

end Drift.Decimal
