namespace Drift.Text

def isSurrogate (n : Nat) : Bool := 0xD800 ≤ n && n < 0xE000

/-- A surrogate is no character. In a text it stands as the character `0x800` above it. -/
def isStandIn (c : Char) : Bool := isSurrogate (c.toNat - 0x800)

/-- In front of a character that would be taken for a surrogate or for the mark itself. -/
def mark : Char := '\uE800'

def isMarked (c : Char) : Bool := 0xE801 ≤ c.toNat && c.toNat ≤ 0xF001

-- each code point comes to stand above those below it, so texts are ordered as their code points are
def heldCode (n : Nat) : List Char :=
  if isSurrogate n then [Char.ofNat (n + 0x800)]
  else if 0xE000 ≤ n ∧ n ≤ 0xE800 then [mark, Char.ofNat (n + 0x801)]
  else [Char.ofNat n]

/-- Code points as a text. -/
def held (codes : List Nat) : List Char := codes.flatMap heldCode

def heldChars (cs : List Char) : List Char := held (cs.map Char.toNat)

def plainCode (c : Char) : Nat := if isStandIn c then c.toNat - 0x800 else c.toNat

def isBroken (s : String) : Bool := s.toList.any isStandIn

/-- The code points of a text. -/
def codes : List Char → List Nat
  | [] => []
  | [c] => [plainCode c]
  | c :: d :: r =>
    if c = mark ∧ isMarked d then (d.toNat - 0x801) :: codes r else plainCode c :: codes (d :: r)

end Drift.Text
