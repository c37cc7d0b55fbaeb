import Drift.Proofs.Yaml.Nodes
import Drift.Proofs.Yaml.Scalars
import Drift.Proofs.Yaml.Tokens
import Drift.Yaml.Load

namespace Drift.Yaml

namespace Graph

theorem getD_modify (nodes : Array Node) (id other : Nat) (f : Node → Node) :
    (nodes.modify id f).getD other default =
      if id = other ∧ other < nodes.size then f (nodes.getD other default) else nodes.getD other default := by
  by_cases inside : other < nodes.size
  · simp [Array.getD, inside, Array.getElem_modify]
  · simp [Array.getD, inside]

theorem content_setContent (g : Graph) (id other : Nat) (c : Content) :
    ((g.setContent id c).node other).content =
      if id = other ∧ other < g.nodes.size then c else (g.node other).content := by
  rw [setContent, node, getD_modify, apply_ite Node.content]
  rfl

theorem tag_setContent (g : Graph) (id other : Nat) (c : Content) : (g.setContent id c).tag other = g.tag other := by
  rw [setContent, tag, node, getD_modify]
  split <;> rfl

theorem content_setTag (g : Graph) (id other : Nat) (t : Tag) :
    ((g.setTag id t).node other).content = (g.node other).content := by
  rw [setTag, node, getD_modify]
  split <;> rfl

theorem tag_setTag (g : Graph) (id other : Nat) (t : Tag) :
    (g.setTag id t).tag other = g.tag other ∨ (g.setTag id t).tag other = t := by
  rw [setTag, tag, node, getD_modify]
  split
  · exact .inr rfl
  · exact .inl rfl

def IsScalar (g : Graph) (id : Nat) : Prop := ∃ codes, (g.node id).content = .scalar codes

/-- What is wrong with the nodes of a graph: they form no value, or are chained for too long; or the text of a scalar
does not fit the node's tag; or a collection has the tag of a scalar type, and either the text in it does not fit, or
the type is that of timestamps. -/
inductive Defect (g : Graph) : Failure → Prop where
  | form : g.Defect .malformed
  | chain : g.Defect .tooDeep
  | scalar {id : Nat} {codes : List Nat} {e : Failure} (own : (g.node id).content = .scalar codes)
      (fails : Scalar.value (id + 1) (g.tag id) codes = .error e) (misfit : Scalar.Misfit (g.tag id) e) : g.Defect e
  | inner {id place : Nat} {codes : List Nat} {e : Failure} (collection : ¬ g.IsScalar id)
      (held : (g.node place).content = .scalar codes) (fails : Scalar.value (id + 1) (g.tag id) codes = .error e)
      (misfit : Scalar.Misfit (g.tag id) e) : g.Defect e
  | timestamp {id : Nat} (collection : ¬ g.IsScalar id) (tag : g.tag id = .timestamp) : g.Defect .noScalar

end Graph

namespace Make

variable {α β : Type} {g : Graph}

/-- The scalars are those of the graph at the start, and so are the tags, except for those of keys that became
texts. -/
structure Keeps (g h : Graph) : Prop where
  scalar : ∀ id codes, (h.node id).content = .scalar codes ↔ (g.node id).content = .scalar codes
  tag : ∀ id, h.tag id = g.tag id ∨ h.tag id = .str

theorem Keeps.setTag {h : Graph} (kept : Keeps g h) (id : Nat) : Keeps g (h.setTag id .str) := by
  constructor
  · intro other codes
    rw [Graph.content_setTag]
    exact kept.scalar other codes
  · intro other
    rcases h.tag_setTag id other .str with same | plain
    · rw [same]
      exact kept.tag other
    · exact .inr plain

theorem Keeps.setContent {h : Graph} (kept : Keeps g h) {id : Nat} (collection : ¬ g.IsScalar id)
    (es : List (Nat × Nat)) : Keeps g (h.setContent id (.map es)) := by
  constructor
  · intro other codes
    rw [Graph.content_setContent, ← kept.scalar]
    split
    · rename_i here
      obtain ⟨rfl, -⟩ := here
      exact iff_of_false nofun fun scalar => collection ⟨codes, (kept.scalar id codes).1 scalar⟩
    · exact Iff.rfl
  · intro other
    rw [Graph.tag_setContent]
    exact kept.tag other

def Makes (g : Graph) (Q : α → Prop) (x : Make α) : Prop := Runs (fun m => Keeps g m.graph) g.Defect Q x

namespace Makes

theorem malformed {Q : α → Prop} : Makes g Q (throw .malformed) := Runs.fails .form

theorem tooDeep {Q : α → Prop} : Makes g Q (throw .tooDeep) := Runs.fails .chain

theorem done {a : α} : Makes g (fun _ => True) (pure a) := Runs.pure trivial

theorem any {Q : α → Prop} {x : Make α} (h : Makes g Q x) : Makes g (fun _ => True) x := h.mono fun _ _ => trivial

theorem andThen {R : β → Prop} {x : Make α} {f : α → Make β} (head : Makes g (fun _ => True) x)
    (tail : ∀ a, Makes g R (f a)) : Makes g R (x >>= f) := Runs.bind head fun a _ => tail a

theorem state : Makes g (fun _ => True) (get : Make Making) := Runs.state.mono fun _ _ => trivial

theorem change {f : Making → Making} (kept : ∀ m, Keeps g m.graph → Keeps g (f m).graph) :
    Makes g (fun _ => True) (modify f) := Runs.change kept

theorem node (id : Nat) :
    Makes g (fun n => (∀ codes, n.content = .scalar codes ↔ (g.node id).content = .scalar codes) ∧
      (n.tag = g.tag id ∨ n.tag = .str)) (node id) :=
  Runs.bind Runs.state fun _ kept => Runs.pure ⟨kept.scalar id, kept.tag id⟩

theorem entries (id : Nat) : Makes g (fun _ => True) (entries id) := andThen state fun _ => done

theorem setEntries {id : Nat} (collection : ¬ g.IsScalar id) (es : List (Nat × Nat)) :
    Makes g (fun _ => True) (setEntries id es) := change fun _ kept => kept.setContent collection es

theorem not_isScalar {n : Node} {id : Nat} (same : ∀ codes, n.content = .scalar codes ↔
    (g.node id).content = .scalar codes) (collection : ∀ codes, n.content ≠ .scalar codes) : ¬ g.IsScalar id := by
  rintro ⟨codes, scalar⟩
  exact collection codes ((same codes).2 scalar)

theorem isMapping (id : Nat) : Makes g (fun b => b = true → ¬ g.IsScalar id) (isMapping id) := by
  apply Runs.bind (node id)
  rintro n ⟨same, -⟩
  split
  · rename_i mapping
    exact Runs.pure fun _ => not_isScalar same (by simp [mapping])
  · exact Runs.pure nofun

theorem scalarCodes (fuel id : Nat) :
    Makes g (fun codes => (g.node id).content = .scalar codes ∨
      (¬ g.IsScalar id ∧ ∃ place, (g.node place).content = .scalar codes)) (scalarCodes fuel id) := by
  induction fuel generalizing id with
  | zero => exact tooDeep
  | succ fuel ih =>
    rw [Make.scalarCodes]
    apply Runs.bind (node id)
    rintro n ⟨same, -⟩
    split
    · rename_i codes own
      exact Runs.pure (.inl ((same codes).1 own))
    · exact malformed
    · rename_i entries mapping
      apply Runs.bind Runs.state
      intro m _
      dsimp only
      split
      · rename_i v _
        apply (ih v).mono
        intro codes held
        refine .inr ⟨not_isScalar same (by simp [mapping]), ?_⟩
        rcases held with own | ⟨-, place, inner⟩
        · exact ⟨v, own⟩
        · exact ⟨place, inner⟩
      · exact malformed

theorem scalarValue {tag : Tag} {id : Nat} (known : tag = g.tag id ∨ tag = .str) :
    Makes g (fun _ => True) (scalarValue tag id) := by
  have fails : ∀ codes e, Scalar.value (id + 1) tag codes = .error e → tag = g.tag id := by
    rintro codes e fails
    rcases known with same | rfl
    · exact same
    · cases fails
  rw [Make.scalarValue]
  apply Runs.bind Runs.state
  intro m _
  apply Runs.bind (scalarCodes m.store.room.chain id)
  intro codes held
  have last : Makes g (fun _ => True) (liftM (Scalar.value (id + 1) tag codes) : Make Value) := by
    apply Runs.lift
    intro e failed
    obtain rfl := fails codes e failed
    have misfit := Scalar.fits_value _ _ _ e failed
    rcases held with own | ⟨collection, place, inner⟩
    · exact .scalar own failed misfit
    · exact .inner collection inner failed misfit
  apply Runs.bind (isMapping id)
  intro mapping collection
  by_cases misplaced : tag = .timestamp ∧ mapping = true
  · obtain ⟨rfl, rfl⟩ := misplaced
    have same : g.tag id = .timestamp := by
      rcases known with same | other
      · exact same.symm
      · cases other
    rw [if_pos ⟨rfl, rfl⟩]
    exact andThen (Runs.fails (.timestamp (collection rfl) same)) fun _ => last
  · rw [if_neg misplaced]
    exact last

theorem newCollection (id : Nat) (c : Collection) : Makes g (fun _ => True) (newCollection id c) :=
  andThen state fun _ => andThen (change fun _ kept => kept) fun _ => done

theorem value (id : Nat) : Makes g (fun _ => True) (value id) := by
  have keep : ∀ v : Value, Makes g (fun _ => True) (do
      modify fun m => { m with made := m.made.setIfInBounds id (some v) }
      return v) :=
    fun v => andThen (change fun _ kept => kept) fun _ => done
  rw [Make.value]
  apply andThen state
  intro m
  split
  · exact done
  · apply Runs.bind (node id)
    rintro n ⟨-, tag⟩
    dsimp only
    split
    any_goals exact andThen (newCollection _ _) keep
    any_goals exact andThen malformed keep
    exact andThen (scalarValue tag) keep

theorem plainKeys (es : List (Nat × Nat)) : Makes g (fun _ => True) (plainKeys es) := by
  apply change
  intro m kept
  dsimp only
  generalize m.graph = h at kept
  induction es generalizing h with
  | nil => exact kept
  | cons e es ih =>
    rw [List.foldl_cons]
    apply ih
    split
    · exact kept.setTag _
    · exact kept

theorem ofMapping {Q : α → Prop} {id : Nat} {f : Unit → Make α} (tail : ¬ g.IsScalar id → Makes g Q (f ())) :
    Makes g Q (do
      let mapping ← Make.isMapping id
      if !mapping then
        let u ← throw .malformed
        f u
      else f ()) := by
  apply Runs.bind (isMapping id)
  intro mapping collection
  cases mapping with
  | false => exact Runs.bind (malformed (Q := fun _ => False)) nofun
  | true => exact tail (collection rfl)

theorem flattenFrom {flatten : Nat → Make Unit} (inside : ∀ id, ¬ g.IsScalar id → Makes g (fun _ => True) (flatten id))
    {id : Nat} (collection : ¬ g.IsScalar id) (count index : Nat) (merged : List (Nat × Nat)) :
    Makes g (fun _ => True) (flattenFrom flatten id count index merged) := by
  induction count generalizing index merged with
  | zero => exact malformed
  | succ count ih =>
    rw [Make.flattenFrom]
    apply andThen (entries id)
    intro all
    apply andThen state
    intro m
    apply andThen (plainKeys _)
    intro _
    split
    · split
      · exact setEntries collection _
      · exact done
    · apply andThen (setEntries collection _)
      intro _
      apply Runs.bind (node _)
      rintro n ⟨same, -⟩
      dsimp only
      split
      · rename_i mapping
        have mapped := not_isScalar same (by simp [mapping])
        exact andThen (inside _ mapped) fun _ => andThen (entries _) fun _ => ih _ _
      · refine andThen (Runs.mapM ?_) fun _ => andThen done fun _ => ih _ _
        intro item _
        apply ofMapping
        exact fun mapped => andThen (inside item mapped) fun _ => entries item
      · exact andThen malformed fun _ => ih _ _

theorem flatten (fuel : Nat) {id : Nat} (collection : ¬ g.IsScalar id) :
    Makes g (fun _ => True) (flatten fuel id) := by
  induction fuel generalizing id with
  | zero => exact tooDeep
  | succ fuel ih =>
    rw [Make.flatten]
    apply andThen (entries id)
    intro es
    exact flattenFrom (fun _ => ih) collection _ _ _

theorem mappingEntries (id : Nat) : Makes g (fun _ => True) (mappingEntries id) := by
  rw [Make.mappingEntries]
  apply ofMapping
  intro collection
  apply andThen state
  intro m
  apply andThen (flatten m.store.room.chain collection)
  intro _
  apply andThen (entries id)
  intro es
  refine andThen (Runs.foldlM _ ?_) fun _ => done
  rintro found ⟨k, v⟩ -
  apply andThen (value k)
  intro key
  split
  · exact malformed
  · exact andThen (value v) fun _ => done

theorem pairItem (item : Nat) : Makes g (fun _ => True) (pairItem item) := by
  rw [Make.pairItem]
  apply ofMapping
  intro _
  apply andThen (entries item)
  intro es
  split
  · apply andThen (value _)
    intro a
    apply andThen (value _)
    intro b
    exact Runs.changeGet fun _ kept => kept
  · exact malformed

theorem contents (id : Nat) : Makes g (fun _ => True) (contents id) := by
  rw [Make.contents]
  apply andThen (node id).any
  intro n
  split
  · exact andThen (mappingEntries id) fun _ => done
  · exact andThen (mappingEntries id) fun _ => done
  · split
    · refine andThen (Runs.mapM ?_) fun _ => done
      intro item _
      split
      · exact value item
      · exact pairItem item
    · exact malformed

theorem fillFrom (fuel i : Nat) : Makes g (fun _ => True) (fillFrom fuel i) := by
  induction fuel generalizing i with
  | zero => exact done
  | succ fuel ih =>
    rw [Make.fillFrom]
    apply andThen state
    intro m
    split
    · exact done
    · apply andThen (contents _)
      intro c
      exact andThen (change fun _ kept => kept) fun _ => ih _

end Makes

end Make

theorem Graph.value_error {g : Graph} {room : Room} {root : Nat} {e : Failure} (fails : g.value room root = .error e) :
    g.Defect e := by
  have makes : Make.Makes g (fun _ => True) (do
      let v ← Make.value root
      Make.fillFrom g.nodes.size 0
      return v) :=
    .andThen (.value root) fun _ => .andThen (.fillFrom _ _) fun _ => .done
  rw [Graph.value] at fails
  dsimp only at fails
  cases run : (do
    let v ← Make.value root
    Make.fillFrom g.nodes.size 0
    return v : Make Value).run { graph := g, made := Array.replicate g.nodes.size none, store := { room } } with
  | ok made =>
    rw [run] at fails
    cases fails
  | error d =>
    rw [run] at fails
    cases fails
    exact makes.of_error ⟨fun _ _ => Iff.rfl, fun _ => .inl rfl⟩ run

inductive Defect (room : Room) (cs : List Char) : Failure → Prop where
  | form : Defect room cs .malformed
  | depth : Defect room cs .tooDeep
  | tokens {e : Failure} (ended : (Token.ofText cs).2 = some e) (stops : Token.Stops e) : Defect room cs e
  | nodes {root : Nat} {g : Graph} {e : Failure} (read : Graph.ofText room.nodes cs = .ok (some root, g))
      (defect : g.Defect e) : Defect room cs e

theorem load_error {room : Room} {cs : List Char} {e : Failure} (fails : load room cs = .error e) : Defect room cs e := by
  rw [load] at fails
  split at fails
  · rename_i read
    cases fails
    rcases Graph.ofText_error read with rfl | rfl | early
    · exact .form
    · exact .depth
    · exact .tokens early (Token.ofText_stops early)
  · cases fails
  · rename_i root g read
    exact .nodes read (Graph.value_error fails)

end Drift.Yaml
