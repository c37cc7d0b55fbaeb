import Drift.Recognizer.Search

namespace Drift.Recognizer

def sign (c : Char) : Recognizer Unit := skip (char (· == c))

def isNot (c : Char) : Char → Bool := (· != c)

def isLetter (c : Char) : Bool := c.isAlpha || c == '_'

/-- A name that starts with a character with the property `p`, and goes on with such with `q` as far as it
can. -/
def name (p q : Char → Bool) : Recognizer (List Char) := do
  let x ← char p
  let r ← run q
  return x :: r

def identifier : Recognizer (List Char) := name isLetter Text.isWord

def isDollarLetter (c : Char) : Bool := isLetter c || c == '$'

def isDollarWord (c : Char) : Bool := Text.isWord c || c == '$'

def dollarIdentifier : Recognizer (List Char) := name isDollarLetter isDollarWord

def isDottedWord (c : Char) : Bool := Text.isWord c || c == '.'

def doubleQuoted : Recognizer (List Char) := do
  sign '"'
  let s ← run (isNot '"')
  sign '"'
  return s

def isPlainQuote (c : Char) : Bool := c == '"' || c == '\''

def plainQuoted : Recognizer (List Char) := do
  skip (char isPlainQuote)
  let s ← run fun c => !isPlainQuote c
  skip (char isPlainQuote)
  return s

def keyword (w : String) : Recognizer Unit := do word w; gap1

def keywords (ws : List String) : Recognizer Unit := repeated do skip (oneOf ws); gap1

def group (opening : Char) (p : Char → Bool) (closing : Char) : Recognizer (List Char) := do
  sign opening
  let s ← if p closing then many p else run p
  sign closing
  return s

def isIdentifier (cs : List Char) : Bool :=
  accepts (do let s ← identifier; atEnd; return s) cs

end Drift.Recognizer
