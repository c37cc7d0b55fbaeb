import Drift.Decimal.Layout
import Drift.Decimal.Nearest

namespace Drift.Decimal

/-- How a number is written with a number of digits: those behind the point are counted, with or without an
exponent; or those that tell something, in the notation that the size of the number suggests. -/
inductive Rounded.Style where
  | fixed | scientific | general
  deriving DecidableEq, Repr

namespace Rounded

def fraction (pointed : Bool) (digits : List Char) : List Char :=
  if digits.isEmpty && !pointed then [] else '.' :: digits

def placed (pointed : Bool) (places n : Nat) : List Char :=
  let digits := Nat.toDigits 10 n
  let digits := zeros (places + 1 - digits.length) ++ digits
  digits.take (digits.length - places) ++ fraction pointed (digits.drop (digits.length - places))

def leading (count m : Nat) (q : Int) : List Char × Int :=
  if m = 0 then (zeros count, 0)
  else
    let top := magnitude m q - 1
    let (v, d) := scaled m q (top + 1 - count)
    let digits := Nat.toDigits 10 (roundDiv v d)
    (digits.take count, if digits.length = count then top else top + 1)

def withExponent (pointed : Bool) (digits : List Char) (e : Int) : List Char :=
  digits.take 1 ++ fraction pointed (digits.drop 1) ++ 'e' :: Layout.plain.exponent e

def withoutZeros (digits : List Char) : List Char :=
  digits.take 1 ++ (((digits.drop 1).reverse).dropWhile (· == '0')).reverse

/-- Digits of which the first has the place `e`: positional from the fourth place behind the point to the
last digit before it, else with an exponent. -/
def suggested (pointed : Bool) (count : Nat) (digits : List Char) (e : Int) : List Char :=
  let shown := if pointed then digits else withoutZeros digits
  if -4 ≤ e ∧ e < count then
    if e < 0 then '0' :: fraction pointed (zeros (-e - 1).toNat ++ shown)
    else
      let whole := e.toNat + 1
      shown.take whole ++ zeros (whole - shown.length) ++ fraction pointed (shown.drop whole)
  else withExponent pointed shown e

def mostDigits : Nat := 800

def magnitudeChars (style : Style) (pointed : Bool) (count m : Nat) (q : Int) : List Char :=
  match style with
  | .fixed =>
    let (v, d) := scaled m q (-count)
    placed pointed count (roundDiv v d)
  | .scientific =>
    let (digits, e) := leading (count + 1) m q
    withExponent pointed digits e
  | .general =>
    let count := max count 1
    let (digits, e) := leading (if pointed then count else min count mostDigits) m q
    suggested pointed count digits e

def chars (style : Style) (pointed : Bool) (count : Nat) (b : Binary) : List Char :=
  match b with
  | .nan => Layout.plain.nan.toList
  | .infinite negative => (if negative then ['-'] else []) ++ Layout.plain.infinity.toList
  | .finite negative m q => (if negative then ['-'] else []) ++ magnitudeChars style pointed count m q

end Rounded

end Drift.Decimal
