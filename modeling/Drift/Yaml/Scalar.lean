import Drift.Text.Case
import Drift.Text.DecimalDigit
import Drift.Decimal.Nearest
import Drift.Text.Split
import Drift.Value.Basic
import Drift.Yaml.Tag
import Drift.Yaml.Token.Basic

namespace Drift.Yaml.Scalar

open Decimal (Binary)

def splitSign (cs : List Char) : Bool × List Char :=
  match cs with
  | '-' :: r => (true, r)
  | '+' :: r => (false, r)
  | r => (false, r)

def signed (negative : Bool) (n : Int) : Int := if negative then -n else n

def baseMark (base : Nat) : List (List Char) :=
  if base = 2 then ["0b".toList, "0B".toList]
  else if base = 8 then ["0o".toList, "0O".toList]
  else if base = 16 then ["0x".toList, "0X".toList]
  else []

def integerIn (base : Nat) (cs : List Char) : Except Failure Int :=
  let (negative, body) := splitSign (Text.trim (cs.map Text.plainDigit))
  let digits :=
    match (baseMark base).find? (·.isPrefixOf body) with
    | some mark => body.drop mark.length
    | none => body
  match Text.ofDigits? base digits with
  | none => .error (.unfit (.integer base cs))
  | some n =>
    if base = 10 ∧ maxDigits < digits.length then .error (.unfit (.digits digits.length))
    else .ok (signed negative n)

def sexagesimal (parts : List (List Char)) : Except Failure Int := do
  let digits ← parts.mapM (integerIn 10)
  return digits.foldl (fun n d => n * 60 + d) 0

def withoutGaps (cs : List Char) : List Char := cs.filter (· != '_')

def integer (text : List Char) : Except Failure Int := do
  let (negative, body) := splitSign (withoutGaps text)
  let n ←
    match body with
    | [] => .error .emptyNumber
    | c :: _ =>
      if body = ['0'] then pure 0
      else if "0b".toList.isPrefixOf body then integerIn 2 (body.drop 2)
      else if "0x".toList.isPrefixOf body then integerIn 16 (body.drop 2)
      else if c = '0' then integerIn 8 body
      else if body.contains ':' then sexagesimal (Text.splitAtChar ':' body)
      else integerIn 10 body
  return signed negative n

def exponent? : List Char → Option Int
  | [] => some 0
  | c :: r =>
    if c = 'e' then
      let (negative, digits) := splitSign r
      (Text.ofDigits? 10 digits).map fun n => signed negative n
    else none

def decimal? (negative : Bool) (cs : List Char) : Option Binary := do
  let whole := cs.takeWhile Char.isDigit
  let rest := cs.dropWhile Char.isDigit
  let (fraction, rest) :=
    match rest with
    | '.' :: r => (r.takeWhile Char.isDigit, r.dropWhile Char.isDigit)
    | r => ([], r)
  let n ← Text.ofDigits? 10 (whole ++ fraction)
  let e ← exponent? rest
  return Binary.ofDecimal negative n (e - fraction.length)

def number (cs : List Char) : Except Failure Binary :=
  let (negative, body) := splitSign (Text.trim (cs.map Text.plainDigit))
  if body = "inf".toList ∨ body = "infinity".toList then .ok (.infinite negative)
  else if body = "nan".toList then .ok .nan
  else
    match decimal? negative body with
    | some b => .ok b
    | none => .error (.unfit (.number cs))

def sumFrom (sum : Float) (base : Nat) : List Binary → Except Failure Float
  | [] => .ok sum
  | x :: r =>
    match Binary.ofInt base with
    | .infinite _ => .error .hugePlace
    | b => sumFrom (sum + x.toFloat * b.toFloat) (base * 60) r

def sexagesimalNumber (parts : List (List Char)) : Except Failure Binary := do
  let digits ← parts.mapM number
  return Binary.ofFloat (← sumFrom 0.0 1 digits.reverse)

def plainMark : Nat := 0

def float (mark : Nat) (text : List Char) : Except Failure Value :=
  let cs := Text.lower (withoutGaps text)
  let (negative, body) := splitSign cs
  let signedValue (b : Binary) : Value :=
    match b with
    | .nan => .nan mark
    | b => .float (if negative then b.negated else b).toFloat
  if cs.isEmpty then .error .emptyNumber
  else if body = ".inf".toList then .ok (signedValue (.infinite false))
  else if body = ".nan".toList then .ok (.nan plainMark)
  else if body.contains ':' then signedValue <$> sexagesimalNumber (Text.splitAtChar ':' body)
  else signedValue <$> number body

def bool (text : List Char) : Except Failure Bool :=
  let w := String.ofList (Text.lower text)
  if ["yes", "true", "on"].contains w then .ok true
  else if ["no", "false", "off"].contains w then .ok false
  else .error .badWord

def natOf (digits : List Char) : Nat := (Text.ofDigits? 10 digits).getD 0

def micros (fraction : List Char) : Nat :=
  natOf ((fraction ++ List.replicate 6 '0').take 6)

def offsetOf : Option (Option Char × List Char × List Char) → Option Int
  | none => none
  | some (none, _, _) => some 0
  | some (some s, hours, minutes) => some (signed (s == '-') (natOf hours * 60 + natOf minutes : Nat))

def unfitDate? (d : Date) : Option Unfit :=
  if d.year = 0 then some (.year d.year)
  else if d.month = 0 ∨ 12 < d.month then some .month
  else if d.day = 0 ∨ Date.daysIn d.year d.month < d.day then some .day
  else none

def unfitTime? (t : DateTime) : Option Unfit :=
  (t.offset.filter fun m => 1440 ≤ m.natAbs).map Unfit.offset
    <|> unfitDate? t.date
    <|> if 24 ≤ t.hour then some .hour
      else if 60 ≤ t.minute then some .minute
      else if 60 ≤ t.second then some .second
      else none

def fitting (v : Value) (u : Option Unfit) : Except Failure Value :=
  match u with
  | some u => .error (.unfit u)
  | none => .ok v

def timestamp (text : List Char) : Except Failure Value :=
  match Tag.timestampParts.atStart (Text.dropTail ['\n'] text) with
  | none => .error .noTimestamp
  | some (year, month, day, c) =>
    let date : Date := ⟨natOf year, natOf month, natOf day⟩
    match c with
    | none => fitting (.date date) (unfitDate? date)
    | some c =>
      let t : DateTime :=
        ⟨date, natOf c.hour, natOf c.minute, natOf c.second, micros c.fraction, offsetOf c.zone⟩
      fitting (.time t) (unfitTime? t)

def sextet? (c : Char) : Option Nat :=
  if c.isUpper then some (c.toNat - 65)
  else if c.isLower then some (c.toNat - 71)
  else if c.isDigit then some (c.toNat + 4)
  else if c = '+' then some 62
  else if c = '/' then some 63
  else none

/-- Bytes of base 64. `count` digits with the bits `bits` await a full group, and `pads` signs of padding
were met. What is no digit is passed over. -/
def base64From : Nat → Nat → Nat → List Char → Option (List UInt8)
  | count, _, _, [] => if count = 0 then some [] else none
  | count, bits, pads, c :: r =>
    if c = '=' then
      if 2 ≤ count ∧ 4 ≤ count + pads + 1 then some []
      else base64From count bits (if 2 ≤ count then pads + 1 else pads) r
    else
      match sextet? c with
      | none => base64From count bits pads r
      | some d =>
        match count with
        | 0 => base64From 1 d 0 r
        | 1 => (base64From 2 (d % 16) 0 r).map (UInt8.ofNat (bits * 4 + d / 16) :: ·)
        | 2 => (base64From 3 (d % 4) 0 r).map (UInt8.ofNat (bits * 16 + d / 4) :: ·)
        | _ => (base64From 0 0 0 r).map (UInt8.ofNat (bits * 64 + d) :: ·)

def binary (text : List Char) : Except Failure (List UInt8) :=
  if text.all (·.toNat < 128) then
    match base64From 0 0 0 text with
    | some bytes => .ok bytes
    | none => .error .malformed
  else .error .malformed

/-- The value of a scalar of a type; a merge sign and a value sign have none. The mark is for what is not a
number. -/
def value (mark : Nat) (tag : Tag) (codes : List Nat) : Except Failure Value :=
  let cs := Text.held codes
  match tag with
  | .null => .ok .null
  | .str => .ok (.str (String.ofList cs))
  | .bool => Value.bool <$> bool cs
  | .int => Value.int <$> integer cs
  | .float => float mark cs
  | .timestamp => timestamp cs
  | .binary => Value.bytes <$> binary cs
  | _ => .error .malformed

end Drift.Yaml.Scalar
