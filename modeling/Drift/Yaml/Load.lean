import Drift.Value.Key
import Drift.Yaml.Node
import Drift.Yaml.Scalar

namespace Drift.Yaml

/-- The nodes, the values that some have, the collections among those, and the nodes and numbers of the
collections in the order in which they are to be filled. -/
structure Making where
  graph : Graph
  made : Array (Option Value)
  store : Store
  waiting : Array (Nat × Nat) := #[]

abbrev Make := StateT Making (Except Failure)

namespace Make

def node (id : Nat) : Make Node := return (← get).graph.node id

def entries (id : Nat) : Make (List (Nat × Nat)) := return (← get).graph.entries id

def setEntries (id : Nat) (entries : List (Nat × Nat)) : Make Unit :=
  modify fun m => { m with graph := m.graph.setContent id (.map entries) }

def isMapping (id : Nat) : Make Bool := do
  match (← node id).content with
  | .map _ => return true
  | _ => return false

def scalarCodes : Nat → Nat → Make (List Nat)
  | 0, _ => throw .tooDeep
  | fuel + 1, id => do
    match (← node id).content with
    | .scalar codes => return codes
    | .seq _ => throw .malformed
    | .map entries =>
      let g := (← get).graph
      match entries.find? fun (k, _) => g.tag k = .value with
      | some (_, v) => scalarCodes fuel v
      | none => throw .malformed

def scalarValue (tag : Tag) (id : Nat) : Make Value := do
  let codes ← scalarCodes (← get).store.room.chain id
  if tag = .timestamp ∧ (← isMapping id) then throw .noScalar
  -- each node has a mark of its own, and none has the plain one
  Scalar.value (id + 1) tag codes

def newCollection (id : Nat) (c : Collection) : Make Value := do
  let cell := (← get).store.cells.size
  modify fun m => { m with store := (m.store.add c).2, waiting := m.waiting.push (id, cell) }
  return .held cell

def value (id : Nat) : Make Value := do
  match ((← get).made[id]?).join with
  | some v => return v
  | none =>
    let tag := (← node id).tag
    let v ←
      match tag with
      | .seq | .omap | .pairs => newCollection id (.list [])
      | .set => newCollection id (.set [])
      | .map => newCollection id (.map [])
      | .other | .merge | .value => throw .malformed
      | tag => scalarValue tag id
    modify fun m => { m with made := m.made.setIfInBounds id (some v) }
    return v

def plainKeys (entries : List (Nat × Nat)) : Make Unit :=
  modify fun m => { m with
    graph := entries.foldl (fun g (k, _) => if g.tag k = .value then g.setTag k .str else g) m.graph }

/-- Takes the merge keys out of the entries of a mapping from a place on, where `flatten` does so with other
mappings, and puts the entries of the mappings merged, with those in `merged`, in front. There are no more
than `count` merge keys. -/
def flattenFrom (flatten : Nat → Make Unit) (id : Nat) :
    (count index : Nat) → (merged : List (Nat × Nat)) → Make Unit
  | 0, _, _ => throw .malformed
  | count + 1, index, merged => do
    let all ← entries id
    let g := (← get).graph
    let after := all.drop index
    let skipped := after.takeWhile fun (k, _) => g.tag k ≠ .merge
    plainKeys skipped
    match after.drop skipped.length with
    | [] => if !merged.isEmpty then setEntries id (merged ++ all)
    | (_, v) :: rest =>
      setEntries id (all.take (index + skipped.length) ++ rest)
      let found ←
        match (← node v).content with
        | .map _ => do
          flatten v
          entries v
        | .seq items => do
          let groups ← items.mapM fun item => do
            if !(← isMapping item) then throw .malformed
            flatten item
            entries item
          pure groups.reverse.flatten
        | .scalar _ => throw .malformed
      flattenFrom flatten id count (index + skipped.length) (merged ++ found)

def flatten : Nat → Nat → Make Unit
  | 0, _ => throw .tooDeep
  | fuel + 1, id => do flattenFrom (flatten fuel) id ((← entries id).length + 1) 0 []

def mappingEntries (id : Nat) : Make (List (Value × Value)) := do
  if !(← isMapping id) then throw .malformed
  flatten (← get).store.room.chain id
  let found ← (← entries id).foldlM (fun (found : Entries) (k, v) => do
    let key ← value k
    match key.key? with
    | none => throw .malformed
    | some place => return found.insert place key (← value v)) {}
  return found.toList

def pairItem (item : Nat) : Make Value := do
  if !(← isMapping item) then throw .malformed
  match ← entries item with
  | [(k, v)] =>
    let a ← value k
    let b ← value v
    modifyGet fun m =>
      let (pair, store) := m.store.add (.pair a b)
      (pair, { m with store })
  | _ => throw .malformed

def contents (id : Nat) : Make Collection := do
  let n ← node id
  match n.tag with
  | .map => return .map (← mappingEntries id)
  | .set => return .set ((← mappingEntries id).map (·.1))
  | tag =>
    match n.content with
    | .seq items => return .list (← items.mapM (if tag = .seq then value else pairItem))
    | _ => throw .malformed

def fillFrom : Nat → Nat → Make Unit
  | 0, _ => pure ()
  | fuel + 1, i => do
    match (← get).waiting[i]? with
    | none => pure ()
    | some (id, cell) =>
      let c ← contents id
      modify fun m => { m with store := m.store.set cell c }
      fillFrom fuel (i + 1)

end Make

def Graph.value (g : Graph) (room : Room) (root : Nat) : Except Failure Stored := do
  let make : Make Value := do
    let v ← Make.value root
    Make.fillFrom g.nodes.size 0
    return v
  let (v, m) ← make.run { graph := g, made := Array.replicate g.nodes.size none, store := { room } }
  return ⟨m.store, v⟩

def load (room : Room) (cs : List Char) : Except Failure Stored :=
  match Graph.ofText room.nodes cs with
  | .error e => .error e
  | .ok (none, _) => .ok ⟨{ room }, .null⟩
  | .ok (some root, g) => g.value room root

end Drift.Yaml
