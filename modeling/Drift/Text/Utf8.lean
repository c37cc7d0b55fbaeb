namespace Drift.Text

def isContinuation (b : UInt8) : Bool := 0x80 ≤ b && b ≤ 0xBF

/-- How a sequence goes on behind its first byte: the range of the second byte, the number of bytes
after it, and the payload of the first byte. Overlong forms, surrogates and what lies beyond the last
code point are excluded by the range. -/
structure Lead where
  low : UInt8
  high : UInt8
  more : Nat
  payload : Nat

def Lead.of? (b : UInt8) : Option Lead :=
  if 0xC2 ≤ b ∧ b ≤ 0xDF then some ⟨0x80, 0xBF, 0, b.toNat - 0xC0⟩
  else if b = 0xE0 then some ⟨0xA0, 0xBF, 1, 0⟩
  else if b = 0xED then some ⟨0x80, 0x9F, 1, 0xD⟩
  else if 0xE1 ≤ b ∧ b ≤ 0xEF then some ⟨0x80, 0xBF, 1, b.toNat - 0xE0⟩
  else if b = 0xF0 then some ⟨0x90, 0xBF, 2, 0⟩
  else if 0xF1 ≤ b ∧ b ≤ 0xF3 then some ⟨0x80, 0xBF, 2, b.toNat - 0xF0⟩
  else if b = 0xF4 then some ⟨0x80, 0x8F, 2, 4⟩
  else none

def continuations : Nat → Nat → List UInt8 → Option Nat × Nat
  | 0, n, _ => (some n, 0)
  | _ + 1, _, [] => (none, 0)
  | more + 1, n, b :: r =>
    if isContinuation b then
      let (value, count) := continuations more (n * 64 + (b.toNat - 0x80)) r
      (value, count + 1)
    else (none, 0)

/-- The character at the front and the number of bytes behind the first that belong to it. What is no
character is as long as it could have been the start of one. -/
def decodeFirst (b : UInt8) (r : List UInt8) : Option Char × Nat :=
  if b < 0x80 then (some (Char.ofNat b.toNat), 0)
  else
    match Lead.of? b, r with
    | some lead, c :: r' =>
      if lead.low ≤ c ∧ c ≤ lead.high then
        let (value, count) := continuations lead.more (lead.payload * 64 + (c.toNat - 0x80)) r'
        (value.map Char.ofNat, count + 1)
      else (none, 0)
    | _, _ => (none, 0)

/-- The characters of a byte sequence, none for each maximal piece that is no character. The number
counts the bytes of a piece that are still to be passed. -/
def piecesFrom : Nat → List UInt8 → List (Option Char)
  | _, [] => []
  | k + 1, _ :: r => piecesFrom k r
  | 0, b :: r => (decodeFirst b r).1 :: piecesFrom (decodeFirst b r).2 r

def decodePieces (bs : List UInt8) : List (Option Char) := piecesFrom 0 bs

def decodeUtf8? (bs : List UInt8) : Option (List Char) := (decodePieces bs).mapM id

def decodeUtf8Replacing (bs : List UInt8) : List Char := (decodePieces bs).map (·.getD '\uFFFD')

def encodeUtf8 (s : String) : List UInt8 := s.toUTF8.toList

end Drift.Text
