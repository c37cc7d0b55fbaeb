import Drift.Proofs.Run
import Drift.Yaml.Node

namespace Drift.Yaml

namespace Build

variable {α β : Type} {d : Failure}

def Ends (d e : Failure) : Prop := e = .malformed ∨ e = .tooDeep ∨ e = d

def Reads (d : Failure) (x : Build α) : Prop := Runs (fun b => b.failure = d) (Ends d) (fun _ => True) x

namespace Reads

theorem malformed : Reads d (malformed : Build α) := Runs.fails (.inl rfl)

theorem pure (a : α) : Reads d (Pure.pure a : Build α) := Runs.pure trivial

theorem bind {x : Build α} {f : α → Build β} (head : Reads d x) (tail : ∀ a, Reads d (f a)) : Reads d (x >>= f) :=
  Runs.bind head fun a _ => tail a

theorem ite {c : Prop} [Decidable c] {x y : Build α} (yes : Reads d x) (no : Reads d y) :
    Reads d (if c then x else y) := Runs.ite (fun _ => yes) fun _ => no

theorem state : Reads d (get : Build Builder) := Runs.state.mono fun _ _ => trivial

theorem peek : Reads d peek := by
  apply Runs.bind Runs.state
  intro b same
  split
  · exact pure _
  · exact Runs.fails (.inr (.inr same))

theorem change {f : Builder → Builder} (kept : ∀ b, (f b).failure = b.failure) : Reads d (modify f) :=
  Runs.change fun b same => (kept b).trans same

theorem advance : Reads d advance := change fun _ => rfl

theorem takes (t : Token) : Reads d (takes t) :=
  bind peek fun _ => ite (bind advance fun _ => pure true) (pure false)

theorem expect (t : Token) : Reads d (expect t) := bind (takes t) fun _ => ite malformed (pure ())

theorem at? (ts : List Token) : Reads d (at? ts) := bind peek fun _ => pure _

theorem add (tag : Tag) (c : Content) : Reads d (add tag c) := Runs.changeGet fun _ same => same

theorem nothing : Reads d nothing := add _ _

theorem properties : Reads d properties := by
  apply bind peek
  intro t
  split
  · apply bind advance
    intro _
    apply bind peek
    intro t
    split
    · exact bind advance fun _ => pure _
    · exact pure _
  · apply bind advance
    intro _
    apply bind peek
    intro t
    split
    · exact bind advance fun _ => pure _
    · exact pure _
  · exact pure _

theorem tagName (raw : Option (Option (List Char) × List Char)) : Reads d (tagName raw) := by
  rw [Build.tagName.eq_def]
  split
  · exact pure _
  · exact pure _
  · apply bind state
    intro b
    split
    · exact pure _
    · exact malformed

theorem checkName (anchor : Option (List Char)) : Reads d (checkName anchor) :=
  bind state fun _ => ite malformed (pure ())

theorem setName (anchor : Option (List Char)) (id : Nat) : Reads d (setName anchor id) := by
  cases anchor with
  | none => exact pure ()
  | some name => exact change fun _ => rfl

theorem scalar (anchor name : Option (List Char)) (plain : Bool) (codes : List Nat) :
    Reads d (scalar anchor name plain codes) :=
  bind (checkName anchor) fun _ => bind (add _ _) fun id => bind (setName anchor id) fun _ => pure id

theorem collection (anchor : Option (List Char)) (tag : Tag) {read : Build Content} (reads : Reads d read) :
    Reads d (collection anchor tag read) :=
  bind (checkName anchor) fun _ => bind (add _ _) fun id => bind (setName anchor id) fun _ =>
    bind reads fun _ => bind (change fun _ => rfl) fun _ => pure id

structure Nodes (d : Failure) (fuel : Nat) : Prop where
  node : ∀ block inline depth, Reads d (Build.node block inline depth fuel)
  nodeUnless : ∀ ends block inline depth, Reads d (Build.nodeUnless ends block inline depth fuel)
  blockItems : ∀ depth, Reads d (Build.blockItems depth fuel)
  inlineItems : ∀ depth, Reads d (Build.inlineItems depth fuel)
  blockEntries : ∀ depth, Reads d (Build.blockEntries depth fuel)
  flowItems : ∀ isFirst depth, Reads d (Build.flowItems isFirst depth fuel)
  flowEntries : ∀ isFirst depth, Reads d (Build.flowEntries isFirst depth fuel)

section

variable {fuel : Nat}

theorem nodes_zero : Nodes d 0 :=
  ⟨fun _ _ _ => malformed, fun _ _ _ _ => malformed, fun _ => malformed, fun _ => malformed, fun _ => malformed,
    fun _ _ => malformed, fun _ _ => malformed⟩

theorem behind (h : Nodes d fuel) (t : Token) {f : Nat → Build α} (tail : ∀ n, Reads d (f n)) (ends : List Token)
    (block inline : Bool) (depth : Nat) :
    Reads d (do
      if ← Build.takes t then
        let v ← Build.nodeUnless ends block inline depth fuel
        f v
      else
        let v ← Build.nothing
        f v) :=
  bind (takes t) fun _ => ite (bind (h.nodeUnless ends block inline depth) tail) (bind nothing tail)

theorem guarded {c : Prop} [Decidable c] {x : Build Unit} {f : Unit → Build α} (head : Reads d x)
    (tail : ∀ u, Reads d (f u)) : Reads d (if c then x >>= f else f ()) := ite (bind head tail) (tail ())

theorem node_succ (h : Nodes d fuel) (block inline : Bool) (depth : Nat) :
    Reads d (Build.node block inline depth (fuel + 1)) := by
  have tooDeep : Reads d (throw .tooDeep : Build Unit) := Runs.fails (.inr (.inl rfl))
  rw [Build.node]
  apply bind state
  intro b
  apply guarded tooDeep
  intro _
  apply bind peek
  intro t
  split
  · apply bind advance
    intro _
    apply bind state
    intro b
    split
    · exact pure _
    · exact malformed
  · apply bind properties
    rintro ⟨anchor, rawTag⟩
    apply bind (tagName rawTag)
    intro name
    apply bind peek
    intro t
    split
    · exact bind advance fun _ => scalar _ _ _ _
    · exact bind advance fun _ => collection _ _ (bind (h.flowItems _ _) fun _ => pure _)
    · exact bind advance fun _ => collection _ _ (bind (h.flowEntries _ _) fun _ => pure _)
    · apply ite (collection _ _ (bind (h.inlineItems _) fun _ => pure _))
      apply ite (bind advance fun _ => collection _ _ (bind (h.blockItems _) fun _ => pure _))
      apply ite (bind advance fun _ => collection _ _ (bind (h.blockEntries _) fun _ => pure _))
      exact ite (scalar _ _ _ _) malformed

theorem nodeUnless_succ (h : Nodes d fuel) (ends : List Token) (block inline : Bool) (depth : Nat) :
    Reads d (Build.nodeUnless ends block inline depth (fuel + 1)) := by
  rw [Build.nodeUnless]
  exact bind (at? ends) fun _ => ite nothing (h.node block inline depth)

theorem blockItems_succ (h : Nodes d fuel) (depth : Nat) : Reads d (Build.blockItems depth (fuel + 1)) := by
  rw [Build.blockItems]
  apply bind (takes _)
  intro _
  apply ite
  · apply bind (h.nodeUnless _ _ _ _)
    intro _
    exact bind (h.blockItems depth) fun _ => pure _
  · exact bind (expect _) fun _ => pure _

theorem inlineItems_succ (h : Nodes d fuel) (depth : Nat) : Reads d (Build.inlineItems depth (fuel + 1)) := by
  rw [Build.inlineItems]
  apply bind (takes _)
  intro _
  apply ite
  · apply bind (h.nodeUnless _ _ _ _)
    intro _
    exact bind (h.inlineItems depth) fun _ => pure _
  · exact pure _

theorem blockEntries_succ (h : Nodes d fuel) (depth : Nat) : Reads d (Build.blockEntries depth (fuel + 1)) := by
  rw [Build.blockEntries]
  apply bind (takes _)
  intro _
  apply ite
  · apply bind (h.nodeUnless _ _ _ _)
    intro k
    apply behind h
    intro _
    exact bind (h.blockEntries depth) fun _ => pure _
  · exact bind (expect _) fun _ => pure _

theorem flowItems_succ (h : Nodes d fuel) (isFirst : Bool) (depth : Nat) :
    Reads d (Build.flowItems isFirst depth (fuel + 1)) := by
  have rest : ∀ n : Nat, Reads d (do return n :: (← Build.flowItems false depth fuel)) :=
    fun n => bind (h.flowItems false depth) fun _ => pure _
  have pair : Reads d (do
      let k ← Build.nodeUnless [.value, .comma, .flowSequenceEnd] false false (depth + 1) fuel
      let v ← if ← Build.takes .value then
          Build.nodeUnless [.comma, .flowSequenceEnd] false false (depth + 1) fuel
        else Build.nothing
      return Content.map [(k, v)]) := by
    apply bind (h.nodeUnless _ _ _ _)
    intro k
    apply behind h
    exact fun _ => pure _
  rw [Build.flowItems]
  apply bind (takes _)
  intro _
  apply ite (pure _)
  apply guarded (expect _)
  intro _
  apply bind (takes _)
  intro _
  apply ite (pure _)
  apply bind (takes _)
  intro _
  exact ite (bind (collection _ _ pair) rest) (bind (h.node _ _ _) rest)

theorem flowEntries_succ (h : Nodes d fuel) (isFirst : Bool) (depth : Nat) :
    Reads d (Build.flowEntries isFirst depth (fuel + 1)) := by
  have rest : ∀ e : Nat × Nat, Reads d (do return e :: (← Build.flowEntries false depth fuel)) :=
    fun e => bind (h.flowEntries false depth) fun _ => pure _
  rw [Build.flowEntries]
  apply bind (takes _)
  intro _
  apply ite (pure _)
  apply guarded (expect _)
  intro _
  apply bind (takes _)
  intro _
  apply ite (pure _)
  apply bind (takes _)
  intro _
  apply ite
  · apply bind (h.nodeUnless _ _ _ _)
    intro k
    apply behind h
    exact fun v => bind (pure (k, v)) rest
  · apply bind (h.node _ _ _)
    intro k
    apply bind nothing
    exact fun v => bind (pure (k, v)) rest

theorem nodes (fuel : Nat) : Nodes d fuel := by
  induction fuel with
  | zero => exact nodes_zero
  | succ fuel ih =>
    exact ⟨node_succ ih, nodeUnless_succ ih, blockItems_succ ih, inlineItems_succ ih, blockEntries_succ ih,
      flowItems_succ ih, flowEntries_succ ih⟩

end

theorem directives (fuel : Nat) (versioned : Bool) (handles : List (List Char × List Char)) :
    Reads d (Build.directives fuel versioned handles) := by
  induction fuel generalizing versioned handles with
  | zero => exact malformed
  | succ fuel ih =>
    rw [Build.directives]
    apply bind peek
    intro t
    split
    · apply guarded malformed
      exact fun _ => bind advance fun _ => ih _ _
    · apply guarded malformed
      exact fun _ => bind advance fun _ => ih _ _
    · exact bind advance fun _ => ih _ _
    · exact change fun _ => rfl

theorem skipDocumentEnds (fuel : Nat) : Reads d (Build.skipDocumentEnds fuel) := by
  induction fuel with
  | zero => exact malformed
  | succ fuel ih => exact bind (takes _) fun _ => ite ih (pure ())

theorem document (fuel : Nat) : Reads d (Build.document fuel) := by
  have ending : ∀ n : Nat, Reads d (do
      Build.skipDocumentEnds fuel
      Build.expect .streamEnd
      return some n) :=
    fun n => bind (skipDocumentEnds fuel) fun _ => bind (expect _) fun _ => pure _
  rw [Build.document]
  apply bind peek
  intro t
  apply ite (pure _)
  apply ite
  · apply bind (directives _ _ _)
    intro _
    apply bind (expect _)
    intro _
    apply bind peek
    intro t
    exact ite (bind nothing ending) (bind ((nodes fuel).node _ _ _) ending)
  · refine bind (change ?_) fun _ => bind ((nodes fuel).node _ _ _) ending
    exact fun _ => rfl

end Reads

end Build

/-- The nodes of a text are not read if it is not well-formed, they are nested too deeply, or the tokens end early. -/
theorem Graph.ofText_error {limit : Nat} {cs : List Char} {e : Failure} (fails : Graph.ofText limit cs = .error e) :
    e = .malformed ∨ e = .tooDeep ∨ (Token.ofText cs).2 = some e := by
  rw [Graph.ofText] at fails
  dsimp only at fails
  split at fails
  · cases fails
  · rename_i run
    cases fails
    rcases (Build.Reads.document _).of_error rfl run with malformed | deep | early
    · exact .inl malformed
    · exact .inr (.inl deep)
    · cases ended : (Token.ofText cs).2 with
      | none => exact .inl (by rw [early, ended, Option.getD_none])
      | some d => exact .inr (.inr (by rw [early, ended, Option.getD_some]))

end Drift.Yaml
