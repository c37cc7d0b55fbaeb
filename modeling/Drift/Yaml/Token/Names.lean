import Drift.Text.Utf8
import Drift.Yaml.Token.Quoted

namespace Drift.Yaml

def anchorName (p : Place) : Except Failure (List Char × Place) :=
  let (name, p) := p.run isNameChar
  let closed := endsToken p.peek || p.peek.any fun c => "?:,]\x7d%@\x60".toList.contains c
  if name.isEmpty || !closed then .error .malformed else .ok (name, p)

def percentBytes : Nat → Place → Except Failure (List UInt8 × Place)
  | 0, p => .ok ([], p)
  | fuel + 1, p =>
    if p.peek = some '%' then
      let digits := p.next.rest.take 2
      if digits.length < 2 then .error .malformed
      else
        match hexNumber? digits with
        | none => .error .malformed
        | some n => do
          let (more, p) ← percentBytes fuel (p.skip 3)
          return (UInt8.ofNat n :: more, p)
    else .ok ([], p)

def isUriChar (c : Char) : Bool :=
  c.isAlphanum || "-;/?:@&=+$,_.!~*'()[]%".toList.contains c

def uriFrom : Nat → List Char → Place → Except Failure (List Char × Place)
  | 0, cs, p => .ok (cs, p)
  | fuel + 1, cs, p =>
    let (plain, p) := p.run fun c => isUriChar c && c != '%'
    let cs := cs ++ plain
    if p.peek = some '%' then do
      let (bytes, p) ← percentBytes (p.left + 1) p
      match Text.decodeUtf8? bytes with
      | some more => uriFrom fuel (cs ++ more) p
      | none => .error .malformed
    else .ok (cs, p)

def uri (p : Place) : Except Failure (List Char × Place) := do
  let (cs, p) ← uriFrom (p.left + 1) [] p
  if cs.isEmpty then .error .malformed else return (cs, p)

def tagHandle (p : Place) : Except Failure (List Char × Place) :=
  if p.peek ≠ some '!' then .error .malformed
  else if p.peekAt 1 = some ' ' then .ok (['!'], p.next)
  else
    let name := (p.rest.drop 1).takeWhile isNameChar
    if p.peekAt (name.length + 1) = some '!' then .ok ('!' :: name ++ ['!'], p.skip (name.length + 2))
    else .error .malformed

def tagToken (p : Place) : Except Failure (Token × Place) := do
  let (handle, suffix, p) ←
    if p.peekAt 1 = some '<' then do
      let (suffix, p) ← uri (p.skip 2)
      if p.peek = some '>' then pure (none, suffix, p.next) else .error .malformed
    else if endsToken (p.peekAt 1) then pure (none, ['!'], p.next)
    else
      let body := (p.rest.drop 1).takeWhile fun c => !endsWord (some c)
      if body.contains '!' then do
        let (handle, p) ← tagHandle p
        let (suffix, p) ← uri p
        pure (some handle, suffix, p)
      else do
        let (suffix, p) ← uri p.next
        pure (some ['!'], suffix, p)
  if endsWord p.peek then return (.tag handle suffix, p) else .error .malformed

def decimalNumber (p : Place) : Except Failure (Nat × Place) :=
  let (digits, p) := p.run Char.isDigit
  match Text.ofDigits? 10 digits with
  | some n => if maxDigits < digits.length then .error (.unfit (.digits digits.length)) else .ok (n, p)
  | none => .error .malformed

def directive (p : Place) : Except Failure (Token × Place) := do
  let (name, p) := p.next.run isNameChar
  if name.isEmpty || !endsWord p.peek then .error .malformed
  let (token, p) ←
    if name = "YAML".toList then do
      let (major, p) ← decimalNumber p.skipSpaces
      if p.peek ≠ some '.' then .error .malformed
      let (_, p) ← decimalNumber p.next
      if endsWord p.peek then pure (Token.version major, p) else .error .malformed
    else if name = "TAG".toList then do
      let (handle, p) ← tagHandle p.skipSpaces
      if p.peek ≠ some ' ' then .error .malformed
      let (base, p) ← uri p.skipSpaces
      if endsWord p.peek then pure (Token.tagHandle handle base, p) else .error .malformed
    else pure (Token.otherDirective, p.skipWhile (!isBreak ·))
  return (token, ← p.ignoredLine)

end Drift.Yaml
