import Drift.Yaml.Token.Block
import Drift.Yaml.Token.Names

namespace Drift.Yaml

/-- A place where a key may have started: the number of groups of tokens before it, whether it has to be a key,
and where it is. -/
structure KeyStart where
  number : Nat
  required : Bool
  index : Nat
  line : Nat
  column : Nat

/-- The tokens so far, the depth of flow collections, the columns of the open block collections, and the
places where a key may have started, at most one for each depth. The tokens are in groups, the last group
first; a group is a token met in the text behind those that it turned out to need. -/
structure Layout where
  place : Place
  groups : List (List Token) := []
  count : Nat := 0
  flow : Nat := 0
  indent : Int := -1
  indents : List Int := []
  keyAllowed : Bool := true
  keys : List (Nat × KeyStart) := []
  done : Bool := false

namespace Layout

def push (s : Layout) (t : Token) : Layout := { s with groups := [t] :: s.groups, count := s.count + 1 }

def pushSign (s : Layout) (t : Token) : Layout := { s.push t with place := s.place.next }

def insertAt (s : Layout) (n : Nat) (t : Token) : Layout :=
  { s with groups := s.groups.modify (s.count - 1 - n) (t :: ·) }

def tokensTo (s : Layout) (n : Nat) : List Token := (s.groups.drop (s.count - n)).reverse.flatten

def maxKeyLength : Nat := 1024

def isStale (s : Layout) (k : KeyStart) : Bool :=
  k.line != s.place.line || maxKeyLength < s.place.index - k.index

def dropStale (s : Layout) : Except Failure Layout :=
  if s.keys.any fun (_, k) => s.isStale k && k.required then .error .malformed
  else .ok { s with keys := s.keys.filter fun (_, k) => !s.isStale k }

def dropKey (s : Layout) : Except Failure Layout :=
  if s.keys.any fun (d, k) => d == s.flow && k.required then .error .malformed
  else .ok { s with keys := s.keys.filter fun (d, _) => d != s.flow }

def markKey (s : Layout) : Except Failure Layout :=
  if s.keyAllowed then do
    let s ← s.dropKey
    let k : KeyStart := {
      number := s.count
      required := s.flow == 0 && s.indent == s.place.column
      index := s.place.index
      line := s.place.line
      column := s.place.column }
    return { s with keys := (s.flow, k) :: s.keys }
  else .ok s

def closeTo (column : Int) : Nat → Layout → Layout
  | 0, s => s
  | fuel + 1, s =>
    if s.flow = 0 ∧ column < s.indent then
      closeTo column fuel
        { s.push .blockEnd with indent := s.indents.headD (-1), indents := s.indents.tail }
    else s

def unwind (s : Layout) (column : Int) : Layout := closeTo column (s.indents.length + 1) s

def openAt (s : Layout) (column : Nat) : Layout × Bool :=
  if s.indent < column then ({ s with indents := s.indent :: s.indents, indent := column }, true)
  else (s, false)

def restart (s : Layout) : Except Failure Layout := do
  let s ← (s.unwind (-1)).dropKey
  return { s with keyAllowed := false }

def openFlow (s : Layout) (t : Token) : Except Failure Layout := do
  let s ← s.markKey
  return ({ s with flow := s.flow + 1, keyAllowed := true }).pushSign t

def closeFlow (s : Layout) (t : Token) : Except Failure Layout := do
  if s.flow = 0 then .error .malformed
  let s ← s.dropKey
  return ({ s with flow := s.flow - 1, keyAllowed := false }).pushSign t

def startEntry (s : Layout) (opening : Token) : Except Failure Layout :=
  if s.flow = 0 then
    if s.keyAllowed then
      let (s, opened) := s.openAt s.place.column
      .ok (if opened then s.push opening else s)
    else .error .malformed
  else .ok s

def item (s : Layout) : Except Failure Layout := do
  let s ← s.startEntry .blockSequence
  let s ← { s with keyAllowed := true }.dropKey
  return s.pushSign .item

def key (s : Layout) : Except Failure Layout := do
  let s ← s.startEntry .blockMapping
  let s ← { s with keyAllowed := s.flow == 0 }.dropKey
  return s.pushSign .key

def value (s : Layout) : Except Failure Layout :=
  match s.keys.lookup s.flow with
  | some k =>
    let s := { s with keys := s.keys.filter fun (d, _) => d != s.flow }.insertAt k.number .key
    let s :=
      if s.flow = 0 then
        let (s, opened) := s.openAt k.column
        if opened then s.insertAt k.number .blockMapping else s
      else s
    .ok ({ s with keyAllowed := false }.pushSign .value)
  | none => do
    let s ← s.startEntry .blockMapping
    let s ← { s with keyAllowed := s.flow == 0 }.dropKey
    return s.pushSign .value

def content (s : Layout) (read : Place → Except Failure (Token × Place)) : Except Failure Layout := do
  let s ← s.markKey
  let (t, p) ← read s.place
  return { s with keyAllowed := false, place := p }.push t

def plain (s : Layout) : Except Failure Layout := do
  let s ← s.markKey
  let (text, broke, p) := plainScalar (s.flow != 0) (s.indent + 1) s.place
  return { s with keyAllowed := broke, place := p }.push (.scalar (codesOf text) true)

def block (s : Layout) (folded : Bool) : Except Failure Layout := do
  let s ← { s with keyAllowed := true }.dropKey
  let (text, p) ← blockScalar folded s.indent s.place
  return { s with place := p }.push (.scalar (codesOf text) false)

/-- Blanks, comments and line breaks before a token. A new line allows a key outside of flow
collections. -/
def skipToToken : Nat → Layout → Layout
  | 0, s => s
  | fuel + 1, s =>
    let p := s.place.skipSpaces
    let p := if p.peek = some '#' then p.skipWhile (!isBreak ·) else p
    if p.peek.any isBreak then
      skipToToken fuel { s with place := p.lineBreak.2, keyAllowed := s.keyAllowed || s.flow == 0 }
    else { s with place := p }

def isIndicator (c : Char) : Bool := "-?:,[]\x7b\x7d#&*!|>'\"%@\x60".toList.contains c

def startsPlain (s : Layout) (c : Char) : Bool :=
  (!endsToken (some c) && !isIndicator c) ||
    (!endsToken (s.place.peekAt 1) && (c == '-' || (s.flow == 0 && (c == '?' || c == ':'))))

def token (s : Layout) (c : Char) : Except Failure Layout :=
  let p := s.place
  let alone := endsToken (p.peekAt 1)
  if c = '%' ∧ p.column = 0 then do
    let s ← s.restart
    let (t, p) ← directive s.place
    return { s with place := p }.push t
  else if p.column = 0 ∧ p.atMark "---".toList then do
    let s ← s.restart
    return { s with place := p.skip 3 }.push .documentStart
  else if p.column = 0 ∧ p.atMark "...".toList then do
    let s ← s.restart
    return { s with place := p.skip 3 }.push .documentEnd
  else if c = '[' then s.openFlow .flowSequence
  else if c = '\x7b' then s.openFlow .flowMapping
  else if c = ']' then s.closeFlow .flowSequenceEnd
  else if c = '\x7d' then s.closeFlow .flowMappingEnd
  else if c = ',' then do
    let s ← { s with keyAllowed := true }.dropKey
    return s.pushSign .comma
  else if c = '-' ∧ alone then s.item
  else if c = '?' ∧ (s.flow ≠ 0 ∨ alone) then s.key
  else if c = ':' ∧ (s.flow ≠ 0 ∨ alone) then s.value
  else if c = '*' then s.content fun p => do
    let (name, p) ← anchorName p.next
    return (.alias name, p)
  else if c = '&' then s.content fun p => do
    let (name, p) ← anchorName p.next
    return (.anchor name, p)
  else if c = '!' then s.content tagToken
  else if c = '|' ∧ s.flow = 0 then s.block false
  else if c = '>' ∧ s.flow = 0 then s.block true
  else if c = '\'' ∨ c = '"' then s.content fun p => do
    let (codes, p) ← quotedScalar (c == '"') p
    return (.scalar codes false, p)
  else if s.startsPlain c then s.plain
  else .error .malformed

def atToken (s : Layout) : Except Failure Layout := do
  let s := skipToToken (s.place.left + 1) s
  let s ← s.dropStale
  return s.unwind s.place.column

def step (s : Layout) : Except Failure Layout :=
  match s.place.peek with
  | none => do
    let s ← s.restart
    return { s with done := true }.push .streamEnd
  | some c => s.token c

/-- The tokens that are handed on before the next one is read. One that may be a key is held back, with all behind it,
as long as a colon may still follow. -/
def sureTokens (s : Layout) : List Token :=
  let awaiting := s.keys.filter fun (_, k) => k.required || !s.isStale k
  s.tokensTo ((awaiting.map fun (_, k) => k.number).foldl min s.count)

def run : Nat → Layout → List Token × Option Failure
  | 0, s => (s.sureTokens, some .malformed)
  | fuel + 1, s =>
    match s.atToken >>= step with
    | .error e => (s.sureTokens, some e)
    | .ok s' => if s'.done then (s'.tokensTo s'.count, none) else run fuel s'

end Layout

def isAllowed (c : Char) : Bool :=
  c == '\t' || c == '\n' || c == '\r' || (' ' ≤ c && c ≤ '~') || c == '\x85' ||
    ('\xA0' ≤ c && c.toNat ≤ 0xFFFD) || 0x10000 ≤ c.toNat

def Token.ofText (cs : List Char) : List Token × Option Failure :=
  if cs.all isAllowed then
    let start := Place.start cs
    let place := if start.peek = some '\uFEFF' then start.next else start
    Layout.run (cs.length + 2) { place }
  else ([], some .malformed)

end Drift.Yaml
