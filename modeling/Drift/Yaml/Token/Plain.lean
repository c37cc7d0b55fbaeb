import Drift.Yaml.Token.Place

namespace Drift.Yaml

def codesOf (cs : List Char) : List Nat := cs.map Char.toNat

def isFlowSign (c : Char) : Bool := c == ',' || c == '[' || c == ']' || c == '\x7b' || c == '\x7d'

def plainLength (flow : Bool) : List Char → Nat
  | [] => 0
  | c :: r =>
    if endsToken (some c) ∨ (c = ':' ∧ (endsToken r.head? ∨ (flow ∧ r.head?.any isFlowSign))) ∨
        (flow ∧ (isFlowSign c ∨ c = '?')) then 0
    else plainLength flow r + 1

/-- Blanks inside of a scalar: what they count as, whether a line ended, the place after them. A
document separator ends the scalar. -/
structure Gap where
  text : List Char
  broke : Bool
  place : Place

def moreBreaks : Nat → List Char → Place → Option (List Char) × Place
  | 0, breaks, p => (some breaks, p)
  | fuel + 1, breaks, p =>
    match p.peek with
    | some c =>
      if c = ' ' then moreBreaks fuel breaks p.next
      else if isBreak c then
        let (b, p) := p.lineBreak
        if p.atSeparator then (none, p) else moreBreaks fuel (breaks ++ b) p
      else (some breaks, p)
    | none => (some breaks, p)

/-- A line break counts as itself, unless it is an ordinary one: that is a space, or nothing before
others. -/
def foldBreaks (first more : List Char) : List Char :=
  if first ≠ ['\n'] then first ++ more else if more.isEmpty then [' '] else more

def plainGap (p : Place) : Gap :=
  let (spaces, p) := p.run (· == ' ')
  if p.peek.any isBreak then
    let (first, p) := p.lineBreak
    if p.atSeparator then ⟨[], true, p⟩
    else
      match moreBreaks (p.left + 1) [] p with
      | (some more, p) => ⟨foldBreaks first more, true, p⟩
      | (none, p) => ⟨[], true, p⟩
  else ⟨spaces, false, p⟩

def plainFrom (flow : Bool) (indent : Int) : Nat → Array Char → Gap → List Char × Bool × Place
  | 0, text, gap => (text.toList, gap.broke, gap.place)
  | fuel + 1, text, gap =>
    let p := gap.place
    let n := if p.peek = some '#' then 0 else plainLength flow p.rest
    if n = 0 then (text.toList, gap.broke, p)
    else
      let text := text ++ gap.text ++ p.rest.take n
      let gap := plainGap (p.skip n)
      if gap.text.isEmpty ∨ gap.place.peek = some '#' ∨ (flow = false ∧ (gap.place.column : Int) < indent) then
        (text.toList, gap.broke, gap.place)
      else plainFrom flow indent fuel text gap

def plainScalar (flow : Bool) (indent : Int) (p : Place) : List Char × Bool × Place :=
  plainFrom flow indent (p.left + 1) #[] ⟨[], false, p⟩

end Drift.Yaml
