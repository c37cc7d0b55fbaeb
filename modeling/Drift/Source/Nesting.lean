import Drift.Text.Trim

namespace Drift.Source

/-- The pairs `()`, `[]` and `{}`, each opening character before its closing one. -/
def plainBrackets : List Char := "()[]\x7b\x7d".toList

def typeBrackets : List Char := "()[]\x7b\x7d<>".toList

def alternate : List Char → List Char
  | [] => []
  | [c] => [c]
  | c :: _ :: r => c :: alternate r

def openers (brackets : List Char) : List Char := alternate brackets

def closers (brackets : List Char) : List Char := alternate brackets.tail

def isQuote (c : Char) : Bool := c == '\'' || c == '"' || c == '\x60'

/-- Where a reader stands: the character before, the quote it is inside of, and the number of
brackets that are open. -/
structure Nesting where
  before : Option Char := none
  quote : Option Char := none
  depth : Nat := 0
  deriving DecidableEq, Repr

namespace Nesting

def endsArrow (s : Nesting) (c : Char) : Bool :=
  c == '>' && (s.before == none || s.before == some '=' || s.before == some '-')

def isOperator (s : Nesting) (following : Option Char) : Bool :=
  following == some '=' || following == some '>' ||
    s.before == some '=' || s.before == some '!' || s.before == some '<' || s.before == some '>'

def step (brackets : List Char) (s : Nesting) (c : Char) : Nesting :=
  match s.quote with
  | some q =>
    { s with before := some c, quote := if c = q ∧ s.before ≠ some '\\' then none else some q }
  | none =>
    if isQuote c then { s with before := some c, quote := some c }
    else if c ∈ openers brackets then { s with before := some c, depth := s.depth + 1 }
    else if c ∈ closers brackets ∧ s.endsArrow c = false then
      { s with before := some c, depth := s.depth - 1 }
    else { s with before := some c }

def cuts (sep brackets : List Char) (s : Nesting) (c : Char) (following : Option Char) : Bool :=
  s.quote.isNone && !isQuote c && !(openers brackets).contains c &&
    !((closers brackets).contains c && !s.endsArrow c) && sep == [c] && s.depth == 0 &&
    !(sep == ['='] && s.isOperator following)

end Nesting

def consHead (c : Char) : List (List Char) → List (List Char)
  | [] => [[c]]
  | p :: ps => (c :: p) :: ps

def splitFrom (sep brackets : List Char) : Nesting → List Char → List (List Char)
  | _, [] => [[]]
  | s, c :: r =>
    let parts := splitFrom sep brackets (s.step brackets c) r
    if s.cuts sep brackets c r.head? then [] :: parts else consHead c parts

/-- The parts of a text between the separators that stand outside quotes and brackets. A separator
that is not one character separates nothing. -/
def splitTopLevel (sep brackets text : List Char) : List (List Char) :=
  splitFrom sep brackets {} text

def splitParams (brackets text : List Char) : List (List Char) :=
  ((splitTopLevel [','] brackets text).map Text.trim).filter fun p => !p.isEmpty

def stripDefault (part : List Char) : List Char :=
  Text.trim ((splitTopLevel ['='] typeBrackets part).headD [])

/-- The place of the bracket that brings the count of open brackets from `depth` to zero. A bracket that is
not one character is nowhere. -/
def closingFrom (opening closing : List Char) : Int → List Char → Option Nat
  | _, [] => none
  | depth, c :: r =>
    if [c] = opening then (closingFrom opening closing (depth + 1) r).map (· + 1)
    else if [c] = closing then
      if depth = 1 then some 0 else (closingFrom opening closing (depth - 1) r).map (· + 1)
    else (closingFrom opening closing depth r).map (· + 1)

def findClosing (text : List Char) (start : Nat) (opening closing : List Char) : Option Nat :=
  (closingFrom opening closing 0 (text.drop start)).map (start + ·)

def enclosed? (text : List Char) : Option (List Char × List Char) :=
  (findClosing ('(' :: text) 0 ['('] [')']).map fun i => (text.take (i - 1), text.drop i)

end Drift.Source
