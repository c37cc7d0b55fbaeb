import Drift.Text.Number
import Drift.Yaml.Token.Plain

namespace Drift.Yaml

def escapes : List (Char × Nat) :=
  [('0', 0), ('a', 7), ('b', 8), ('t', 9), ('\t', 9), ('n', 10), ('v', 11), ('f', 12), ('r', 13), ('e', 27),
   (' ', 32), ('"', 34), ('\\', 92), ('/', 47), ('N', 0x85), ('_', 0xA0), ('L', 0x2028), ('P', 0x2029)]

def codeEscapes : List (Char × Nat) := [('x', 2), ('u', 4), ('U', 8)]

def hexNumber? (digits : List Char) : Option Nat :=
  if digits.all fun c => (Text.digitValue? c).any (· < 16) then Text.ofDigits? 16 digits else none

def quotedBreaks : Nat → List Char → Place → Except Failure (List Char × Place)
  | 0, breaks, p => .ok (breaks, p)
  | fuel + 1, breaks, p =>
    if p.atSeparator then .error .malformed
    else
      let p := p.skipWhile fun c => c == ' ' || c == '\t'
      if p.peek.any isBreak then
        let (b, p) := p.lineBreak
        quotedBreaks fuel (breaks ++ b) p
      else .ok (breaks, p)

def quotedSpaces (p : Place) : Except Failure (List Nat × Place) := do
  let (spaces, p) := p.run fun c => c == ' ' || c == '\t'
  match p.peek with
  | none => .error .malformed
  | some c =>
    if isBreak c then
      let (first, p) := p.lineBreak
      let (more, p) ← quotedBreaks (p.left + 1) [] p
      return (codesOf (foldBreaks first more), p)
    else return (codesOf spaces, p)

def quotedEscape (p : Place) : Except Failure (List Nat × Place) :=
  match p.peek with
  | none => .error .malformed
  | some c =>
    match escapes.lookup c with
    | some n => .ok ([n], p.next)
    | none =>
      match codeEscapes.lookup c with
      | some width =>
        let digits := p.next.rest.take width
        if digits.length < width then .error .malformed
        else
          match hexNumber? digits with
          | none => .error .malformed
          | some n =>
            if n < 0x110000 then .ok ([n], p.next.skip width)
            else .error (if n < 0x80000000 then .unfit .code else .hugeCode)
      | none =>
        if isBreak c then do
          let (more, p) ← quotedBreaks (p.left + 1) [] p.lineBreak.2
          return (codesOf more, p)
        else .error .malformed

def quotedText (double : Bool) : Nat → Array Nat → Place → Except Failure (Array Nat × Place)
  | 0, _, _ => .error .malformed
  | fuel + 1, codes, p =>
    let (cs, p) := p.run fun c => !(c == '\'' || c == '"' || c == '\\' || endsToken (some c))
    let codes := codes ++ codesOf cs
    match p.peek with
    | none => .ok (codes, p)
    | some c =>
      if double = false ∧ c = '\'' ∧ p.peekAt 1 = some '\'' then
        quotedText double fuel (codes.push 39) (p.skip 2)
      else if (double ∧ c = '\'') ∨ (double = false ∧ (c = '"' ∨ c = '\\')) then
        quotedText double fuel (codes.push c.toNat) p.next
      else if double ∧ c = '\\' then
        match quotedEscape p.next with
        | .ok (more, p) => quotedText double fuel (codes ++ more) p
        | .error e => .error e
      else .ok (codes, p)

def quotedFrom (double : Bool) : Nat → Array Nat → Place → Except Failure (List Nat × Place)
  | 0, _, _ => .error .malformed
  | fuel + 1, codes, p =>
    if p.peek = some (if double then '"' else '\'') then .ok (codes.toList, p.next)
    else do
      let (spaces, p) ← quotedSpaces p
      let (codes, p) ← quotedText double (p.left + 1) (codes ++ spaces) p
      quotedFrom double fuel codes p

def quotedScalar (double : Bool) (p : Place) : Except Failure (List Nat × Place) := do
  let (codes, p) ← quotedText double (p.left + 1) #[] p.next
  quotedFrom double (p.left + 1) codes p

end Drift.Yaml
