import Drift.Yaml.Token.Plain

namespace Drift.Yaml

inductive Chomping where
  | clip | strip | keep
  deriving DecidableEq, Repr

def chompingOf? (c : Option Char) : Option Chomping :=
  if c = some '+' then some .keep else if c = some '-' then some .strip else none

def indentOf? (c : Option Char) : Option Nat := (c.filter Char.isDigit).map fun c => c.toNat - 48

def blockHeader (p : Place) : Except Failure (Chomping × Option Nat × Place) :=
  let (chomping, increment, p) :=
    match chompingOf? p.peek with
    | some chomping =>
      match indentOf? p.next.peek with
      | some n => (chomping, some n, p.skip 2)
      | none => (chomping, none, p.next)
    | none =>
      match indentOf? p.peek with
      | some n =>
        match chompingOf? p.next.peek with
        | some chomping => (chomping, some n, p.skip 2)
        | none => (.clip, some n, p.next)
      | none => (.clip, none, p)
  if increment = some 0 ∨ endsWord p.peek = false then .error .malformed
  else .ok (chomping, increment, p)

def leadingBlanks : Nat → List Char → Nat → Place → List Char × Nat × Place
  | 0, breaks, widest, p => (breaks, widest, p)
  | fuel + 1, breaks, widest, p =>
    match p.peek with
    | some c =>
      if c = ' ' then leadingBlanks fuel breaks (max widest p.next.column) p.next
      else if isBreak c then
        let (b, p) := p.lineBreak
        leadingBlanks fuel (breaks ++ b) widest p
      else (breaks, widest, p)
    | none => (breaks, widest, p)

def skipIndent (indent : Nat) (p : Place) : Place :=
  p.skip (min (p.rest.takeWhile (· == ' ')).length (indent - p.column))

def blockBreaks (indent : Nat) : Nat → List Char → Place → List Char × Place
  | 0, breaks, p => (breaks, p)
  | fuel + 1, breaks, p =>
    let p := skipIndent indent p
    if p.peek.any isBreak then
      let (b, p) := p.lineBreak
      blockBreaks indent fuel (breaks ++ b) p
    else (breaks, p)

def inBlock (indent : Nat) (p : Place) : Bool := p.column == indent && p.peek.isSome

def blockLines (folded : Bool) (indent : Nat) :
    Nat → Array Char → List Char → List Char → Place → Array Char × List Char × List Char × Place
  | 0, text, last, breaks, p => (text, last, breaks, p)
  | fuel + 1, text, last, breaks, p =>
    if inBlock indent p then
      let flush := !(p.peek.any fun c => c == ' ' || c == '\t')
      let (line, p) := p.run (!isBreak ·)
      let text := text ++ breaks ++ line
      let (last, p) := p.lineBreak
      let (breaks, p) := blockBreaks indent (p.left + 1) [] p
      if inBlock indent p then
        let joined :=
          if folded ∧ last = ['\n'] ∧ flush ∧ !(p.peek.any fun c => c == ' ' || c == '\t') then
            if breaks.isEmpty then [' '] else []
          else last
        blockLines folded indent fuel (text ++ joined) [] breaks p
      else (text, last, breaks, p)
    else (text, last, breaks, p)

def blockScalar (folded : Bool) (parent : Int) (p : Place) : Except Failure (List Char × Place) := do
  let (chomping, increment, p) ← blockHeader p.next
  let p ← p.ignoredLine
  let least := (max (parent + 1) 1).toNat
  let (breaks, indent, p) :=
    match increment with
    | none =>
      let (breaks, widest, p) := leadingBlanks (p.left + 1) [] 0 p
      (breaks, max least widest, p)
    | some n =>
      let indent := least + n - 1
      let (breaks, p) := blockBreaks indent (p.left + 1) [] p
      (breaks, indent, p)
  let (text, last, breaks, p) := blockLines folded indent (p.left + 1) #[] [] breaks p
  return (text.toList ++ (if chomping = .strip then [] else last) ++ (if chomping = .keep then breaks else []), p)

end Drift.Yaml
