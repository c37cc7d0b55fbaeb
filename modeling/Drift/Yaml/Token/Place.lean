import Drift.Yaml.Token.Basic

namespace Drift.Yaml

structure Place where
  rest : List Char
  left : Nat
  index : Nat := 0
  line : Nat := 0
  column : Nat := 0

def isBreak (c : Char) : Bool :=
  c == '\r' || c == '\n' || c == '\x85' || c == '\u2028' || c == '\u2029'

def endsLine (c : Option Char) : Bool := c.all isBreak

def endsWord (c : Option Char) : Bool := c.all fun c => c == ' ' || isBreak c

def endsToken (c : Option Char) : Bool := c.all fun c => c == ' ' || c == '\t' || isBreak c

def isNameChar (c : Char) : Bool := c.isAlphanum || c == '-' || c == '_'

namespace Place

def start (cs : List Char) : Place := { rest := cs, left := cs.length }

def peek (p : Place) : Option Char := p.rest.head?

def peekAt (p : Place) (n : Nat) : Option Char := (p.rest.drop n).head?

def next (p : Place) : Place :=
  match p.rest with
  | [] => p
  | c :: r =>
    if c = '\n' ∨ c = '\x85' ∨ c = '\u2028' ∨ c = '\u2029' ∨ (c = '\r' ∧ r.head? ≠ some '\n') then
      { rest := r, left := p.left - 1, index := p.index + 1, line := p.line + 1, column := 0 }
    else
      { rest := r, left := p.left - 1, index := p.index + 1, line := p.line,
        column := if c = '\uFEFF' then p.column else p.column + 1 }

def skip : Nat → Place → Place
  | 0, p => p
  | n + 1, p => skip n p.next

/-- The characters with the property `f` from here on, and the place after them. -/
def run (f : Char → Bool) (p : Place) : List Char × Place :=
  let cs := p.rest.takeWhile f
  (cs, p.skip cs.length)

def skipWhile (f : Char → Bool) (p : Place) : Place := (p.run f).2

def skipSpaces (p : Place) : Place := p.skipWhile (· == ' ')

def lineBreak (p : Place) : List Char × Place :=
  match p.rest with
  | '\r' :: '\n' :: _ => (['\n'], p.skip 2)
  | c :: _ =>
    if c = '\r' ∨ c = '\n' ∨ c = '\x85' then (['\n'], p.next)
    else if c = '\u2028' ∨ c = '\u2029' then ([c], p.next)
    else ([], p)
  | [] => ([], p)

def atMark (mark : List Char) (p : Place) : Bool := mark.isPrefixOf p.rest && endsToken (p.peekAt 3)

def atSeparator (p : Place) : Bool := p.atMark "---".toList || p.atMark "...".toList

def ignoredLine (p : Place) : Except Failure Place :=
  let p := p.skipSpaces
  let p := if p.peek = some '#' then p.skipWhile (!isBreak ·) else p
  if endsLine p.peek then .ok p.lineBreak.2 else .error .malformed

end Place

end Drift.Yaml
