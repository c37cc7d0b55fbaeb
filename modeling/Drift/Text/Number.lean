namespace Drift.Text

def natChars (n : Nat) : List Char := Nat.toDigits 10 n

def intChars (n : Int) : List Char := if n < 0 then '-' :: natChars n.natAbs else natChars n.natAbs

def intText (n : Int) : String := String.ofList (intChars n)

def natText (n : Nat) : String := String.ofList (natChars n)

def padded (width n : Nat) : List Char :=
  let digits := natChars n
  List.replicate (width - digits.length) '0' ++ digits

def hexDigit (d : Nat) : Char := if d < 10 then Char.ofNat (48 + d) else Char.ofNat (87 + d)

def hexChars : Nat → Nat → List Char
  | 0, _ => []
  | width + 1, n => hexChars width (n / 16) ++ [hexDigit (n % 16)]

def digitValue? (c : Char) : Option Nat :=
  if c.isDigit then some (c.toNat - 48)
  else if 'a' ≤ c ∧ c ≤ 'z' then some (c.toNat - 87)
  else if 'A' ≤ c ∧ c ≤ 'Z' then some (c.toNat - 55)
  else none

def ofDigits? (base : Nat) : List Char → Option Nat
  | [] => none
  | cs => cs.foldl (fun n? c => do
      let n ← n?
      let d ← digitValue? c
      if d < base then some (n * base + d) else none) (some 0)

def ungrouped? : List Char → Option (List Char)
  | [] => none
  | [c] => if c.isDigit then some [c] else none
  | c :: '_' :: d :: r => if c.isDigit then (ungrouped? (d :: r)).map (c :: ·) else none
  | c :: r => if c.isDigit then (ungrouped? r).map (c :: ·) else none

end Drift.Text
