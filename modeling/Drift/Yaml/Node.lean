import Drift.Value.Basic
import Drift.Yaml.Tag
import Drift.Yaml.Token.Layout

namespace Drift.Yaml

inductive Content where
  | scalar (codes : List Nat)
  | seq (items : List Nat)
  | map (entries : List (Nat × Nat))

structure Node where
  tag : Tag
  content : Content

instance : Inhabited Node := ⟨.null, .scalar []⟩

structure Graph where
  nodes : Array Node := #[]

namespace Graph

def node (g : Graph) (id : Nat) : Node := g.nodes.getD id default

def tag (g : Graph) (id : Nat) : Tag := (g.node id).tag

def entries (g : Graph) (id : Nat) : List (Nat × Nat) :=
  match (g.node id).content with
  | .map entries => entries
  | _ => []

def add (g : Graph) (n : Node) : Nat × Graph := (g.nodes.size, ⟨g.nodes.push n⟩)

def setContent (g : Graph) (id : Nat) (c : Content) : Graph :=
  ⟨g.nodes.modify id fun n => { n with content := c }⟩

def setTag (g : Graph) (id : Nat) (t : Tag) : Graph := ⟨g.nodes.modify id fun n => { n with tag := t }⟩

end Graph

/-- What is left of the tokens, why there are no more, how deep nodes may lie in each other, the tag handles, the
numbers of the nodes that have names, and the nodes so far. -/
structure Builder where
  tokens : List Token
  failure : Failure
  limit : Nat
  handles : List (List Char × List Char) := []
  anchors : List (List Char × Nat) := []
  graph : Graph := {}

abbrev Build := StateT Builder (Except Failure)

namespace Build

def malformed {α : Type} : Build α := throw .malformed

def peek : Build Token := do
  let b ← get
  match b.tokens with
  | t :: _ => return t
  | [] => throw b.failure

def advance : Build Unit := modify fun b => { b with tokens := b.tokens.tail }

def takes (t : Token) : Build Bool := do
  if (← peek) = t then
    advance
    return true
  else return false

def expect (t : Token) : Build Unit := do
  if !(← takes t) then malformed

def at? (ts : List Token) : Build Bool := return ts.contains (← peek)

def properties : Build (Option (List Char) × Option (Option (List Char) × List Char)) := do
  match ← peek with
  | .anchor name =>
    advance
    match ← peek with
    | .tag handle suffix =>
      advance
      return (some name, some (handle, suffix))
    | _ => return (some name, none)
  | .tag handle suffix =>
    advance
    match ← peek with
    | .anchor name =>
      advance
      return (some name, some (handle, suffix))
    | _ => return (none, some (handle, suffix))
  | _ => return (none, none)

def tagName : Option (Option (List Char) × List Char) → Build (Option (List Char))
  | none => return none
  | some (none, suffix) => return some suffix
  | some (some handle, suffix) => do
    match (← get).handles.lookup handle with
    | some base => return some (base ++ suffix)
    | none => malformed

def tagOr (default : Tag) (name : Option (List Char)) : Tag :=
  match name with
  | none => default
  | some n => if n = ['!'] then default else Tag.ofName n

def scalarTag (name : Option (List Char)) (plain : Bool) (codes : List Nat) : Tag :=
  if (plain && name.isNone) || name == some ['!'] then Tag.ofForm (Text.held codes)
  else tagOr .str name

def add (tag : Tag) (c : Content) : Build Nat :=
  modifyGet fun b =>
    let (id, g) := b.graph.add ⟨tag, c⟩
    (id, { b with graph := g })

def nothing : Build Nat := add .null (.scalar [])

def checkName (anchor : Option (List Char)) : Build Unit := do
  let anchors := (← get).anchors
  if anchor.any fun name => (anchors.lookup name).isSome then malformed

def setName (anchor : Option (List Char)) (id : Nat) : Build Unit :=
  match anchor with
  | none => pure ()
  | some name => modify fun b => { b with anchors := (name, id) :: b.anchors }

def scalar (anchor name : Option (List Char)) (plain : Bool) (codes : List Nat) : Build Nat := do
  checkName anchor
  let id ← add (scalarTag name plain codes) (.scalar codes)
  setName anchor id
  return id

def collection (anchor : Option (List Char)) (tag : Tag) (read : Build Content) : Build Nat := do
  checkName anchor
  let id ← add tag (.seq [])
  setName anchor id
  let c ← read
  modify fun b => { b with graph := b.graph.setContent id c }
  return id

mutual

/-- A node inside of `depth` others. `block` allows block collections, `inline` a sequence without
indentation of its own. -/
def node (block inline : Bool) (depth : Nat) : Nat → Build Nat
  | 0 => malformed
  | fuel + 1 => do
    if (← get).limit < depth then throw .tooDeep
    let inner := depth + 1
    match ← peek with
    | .alias name =>
      advance
      match (← get).anchors.lookup name with
      | some id => return id
      | none => malformed
    | _ =>
      let (anchor, rawTag) ← properties
      let name ← tagName rawTag
      match ← peek with
      | .scalar codes plain =>
        advance
        scalar anchor name plain codes
      | .flowSequence =>
        advance
        collection anchor (tagOr .seq name) do return .seq (← flowItems true inner fuel)
      | .flowMapping =>
        advance
        collection anchor (tagOr .map name) do return .map (← flowEntries true inner fuel)
      | t =>
        if inline ∧ t = .item then
          collection anchor (tagOr .seq name) do return .seq (← inlineItems inner fuel)
        else if block ∧ t = .blockSequence then
          advance
          collection anchor (tagOr .seq name) do return .seq (← blockItems inner fuel)
        else if block ∧ t = .blockMapping then
          advance
          collection anchor (tagOr .map name) do return .map (← blockEntries inner fuel)
        else if anchor.isSome ∨ name.isSome then scalar anchor name name.isNone []
        else malformed
termination_by structural fuel => fuel

def nodeUnless (ends : List Token) (block inline : Bool) (depth : Nat) : Nat → Build Nat
  | 0 => malformed
  | fuel + 1 => do if ← at? ends then nothing else node block inline depth fuel
termination_by structural fuel => fuel

def blockItems (depth : Nat) : Nat → Build (List Nat)
  | 0 => malformed
  | fuel + 1 => do
    if ← takes .item then
      let n ← nodeUnless [.item, .blockEnd] true false depth fuel
      return n :: (← blockItems depth fuel)
    else
      expect .blockEnd
      return []
termination_by structural fuel => fuel

def inlineItems (depth : Nat) : Nat → Build (List Nat)
  | 0 => malformed
  | fuel + 1 => do
    if ← takes .item then
      let n ← nodeUnless [.item, .key, .value, .blockEnd] true false depth fuel
      return n :: (← inlineItems depth fuel)
    else return []
termination_by structural fuel => fuel

def blockEntries (depth : Nat) : Nat → Build (List (Nat × Nat))
  | 0 => malformed
  | fuel + 1 => do
    let ends : List Token := [.key, .value, .blockEnd]
    if ← takes .key then
      let k ← nodeUnless ends true true depth fuel
      let v ← if ← takes .value then nodeUnless ends true true depth fuel else nothing
      return (k, v) :: (← blockEntries depth fuel)
    else
      expect .blockEnd
      return []
termination_by structural fuel => fuel

def flowItems (isFirst : Bool) (depth : Nat) : Nat → Build (List Nat)
  | 0 => malformed
  | fuel + 1 => do
    if ← takes .flowSequenceEnd then return []
    if !isFirst then expect .comma
    if ← takes .flowSequenceEnd then return []
    let n ←
      if ← takes .key then
        collection none .map do
          let k ← nodeUnless [.value, .comma, .flowSequenceEnd] false false (depth + 1) fuel
          let v ← if ← takes .value then nodeUnless [.comma, .flowSequenceEnd] false false (depth + 1) fuel
            else nothing
          return .map [(k, v)]
      else node false false depth fuel
    return n :: (← flowItems false depth fuel)
termination_by structural fuel => fuel

def flowEntries (isFirst : Bool) (depth : Nat) : Nat → Build (List (Nat × Nat))
  | 0 => malformed
  | fuel + 1 => do
    if ← takes .flowMappingEnd then return []
    if !isFirst then expect .comma
    if ← takes .flowMappingEnd then return []
    let entry ←
      if ← takes .key then
        let k ← nodeUnless [.value, .comma, .flowMappingEnd] false false depth fuel
        let v ← if ← takes .value then nodeUnless [.comma, .flowMappingEnd] false false depth fuel
          else nothing
        pure (k, v)
      else
        let k ← node false false depth fuel
        let v ← nothing
        pure (k, v)
    return entry :: (← flowEntries false depth fuel)
termination_by structural fuel => fuel

end

def defaultHandles : List (List Char × List Char) :=
  [(['!'], ['!']), (['!', '!'], Tag.standardBase)]

def directives : Nat → Bool → List (List Char × List Char) → Build Unit
  | 0, _, _ => malformed
  | fuel + 1, versioned, handles => do
    match ← peek with
    | .version major =>
      if versioned || major != 1 then malformed
      advance
      directives fuel true handles
    | .tagHandle handle base =>
      if (handles.lookup handle).isSome then malformed
      advance
      directives fuel versioned ((handle, base) :: handles)
    | .otherDirective =>
      advance
      directives fuel versioned handles
    | _ => modify fun b => { b with handles := handles ++ defaultHandles }

def skipDocumentEnds : Nat → Build Unit
  | 0 => malformed
  | fuel + 1 => do if ← takes .documentEnd then skipDocumentEnds fuel

def isDirective : Token → Bool
  | .version _ => true
  | .tagHandle _ _ => true
  | .otherDirective => true
  | _ => false

def document (fuel : Nat) : Build (Option Nat) := do
  let t ← peek
  let n ←
    if t = .streamEnd then return none
    else if t = .documentStart ∨ isDirective t then
      directives fuel false []
      expect .documentStart
      let t ← peek
      if t = .documentStart ∨ t = .documentEnd ∨ t = .streamEnd ∨ isDirective t then nothing
      else node true false 0 fuel
    else
      modify fun b => { b with handles := defaultHandles }
      node true false 0 fuel
  skipDocumentEnds fuel
  expect .streamEnd
  return some n

end Build

/-- The nodes of a text, and the number of the outermost one; none if the text is empty. The fuel exceeds the
number of calls on the way to any token. -/
def Graph.ofText (limit : Nat) (cs : List Char) : Except Failure (Option Nat × Graph) :=
  let (tokens, failure) := Token.ofText cs
  match (Build.document (4 * tokens.length + 8)).run { tokens, failure := failure.getD .malformed, limit } with
  | .ok (root, b) => .ok (root, b.graph)
  | .error e => .error e

end Drift.Yaml
