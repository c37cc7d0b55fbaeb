import Drift.Proofs.Run
import Drift.Yaml.Token.Layout

namespace Drift.Yaml

/-- The text is not well-formed, an escape stands for no character, or the number of a version has too many digits. -/
inductive Token.Stops : Failure → Prop where
  | form : Stops .malformed
  | code : Stops (.unfit .code)
  | hugeCode : Stops .hugeCode
  | version (count : Nat) : Stops (.unfit (.digits count))

abbrev Stopping {α : Type} (x : Except Failure α) : Prop := FailsWith Token.Stops x

namespace Stopping

variable {α : Type}

theorem malformed : Stopping (.error .malformed : Except Failure α) := .error .form

theorem guarded {c : Prop} [Decidable c] {f : Unit → Except Failure α} (tail : ∀ u, Stopping (f u)) :
    Stopping (if c then (.error .malformed : Except Failure Unit) >>= f else f ()) :=
  .ite (.bind malformed tail) (tail ())

theorem ignoredLine (p : Place) : Stopping p.ignoredLine := .ite (.ok _) malformed

theorem quotedBreaks (fuel : Nat) (breaks : List Char) (p : Place) : Stopping (quotedBreaks fuel breaks p) := by
  induction fuel generalizing breaks p with
  | zero => exact .ok _
  | succ fuel ih =>
    rw [Yaml.quotedBreaks]
    refine .ite malformed ?_
    exact .ite (ih _ _) (.ok _)

theorem quotedSpaces (p : Place) : Stopping (quotedSpaces p) := by
  rw [Yaml.quotedSpaces]
  dsimp only
  split
  · exact malformed
  · apply FailsWith.ite
    · exact .bind (quotedBreaks _ _ _) fun _ => .ok _
    · exact .ok _

theorem quotedEscape (p : Place) : Stopping (quotedEscape p) := by
  rw [Yaml.quotedEscape]
  split
  · exact malformed
  · split
    · exact .ok _
    · split
      · refine .ite malformed ?_
        split
        · exact malformed
        · refine .ite (.ok _) ?_
          apply FailsWith.error
          split
          · exact .code
          · exact .hugeCode
      · apply FailsWith.ite
        · exact .bind (quotedBreaks _ _ _) fun _ => .ok _
        · exact malformed

theorem quotedText (double : Bool) (fuel : Nat) (codes : Array Nat) (p : Place) :
    Stopping (quotedText double fuel codes p) := by
  induction fuel generalizing codes p with
  | zero => exact malformed
  | succ fuel ih =>
    rw [Yaml.quotedText]
    dsimp only
    split
    · exact .ok _
    · refine .ite (ih _ _) ?_
      refine .ite (ih _ _) ?_
      apply FailsWith.ite
      · split
        · exact ih _ _
        · rename_i escape
          rintro e ⟨⟩
          exact quotedEscape _ _ escape
      · exact .ok _

theorem quotedFrom (double : Bool) (fuel : Nat) (codes : Array Nat) (p : Place) :
    Stopping (quotedFrom double fuel codes p) := by
  induction fuel generalizing codes p with
  | zero => exact malformed
  | succ fuel ih =>
    rw [Yaml.quotedFrom]
    refine .ite (.ok _) ?_
    apply FailsWith.bind (quotedSpaces p)
    rintro ⟨spaces, p⟩
    apply FailsWith.bind (quotedText _ _ _ _)
    rintro ⟨codes, p⟩
    exact ih _ _

theorem quotedScalar (double : Bool) (p : Place) : Stopping (quotedScalar double p) :=
  .bind (quotedText _ _ _ _) fun _ => quotedFrom _ _ _ _

theorem blockHeader (p : Place) : Stopping (blockHeader p) := by
  rw [Yaml.blockHeader]
  split
  exact .ite malformed (.ok _)

theorem blockScalar (folded : Bool) (parent : Int) (p : Place) : Stopping (blockScalar folded parent p) := by
  rw [Yaml.blockScalar]
  apply FailsWith.bind (blockHeader _)
  rintro ⟨chomping, increment, p⟩
  apply FailsWith.bind (ignoredLine _)
  exact fun p => .ok _

theorem anchorName (p : Place) : Stopping (anchorName p) := .ite malformed (.ok _)

theorem percentBytes (fuel : Nat) (p : Place) : Stopping (percentBytes fuel p) := by
  induction fuel generalizing p with
  | zero => exact .ok _
  | succ fuel ih =>
    rw [Yaml.percentBytes]
    apply FailsWith.ite
    · refine .ite malformed ?_
      split
      · exact malformed
      · exact .bind (ih _) fun _ => .ok _
    · exact .ok _

theorem uriFrom (fuel : Nat) (cs : List Char) (p : Place) : Stopping (uriFrom fuel cs p) := by
  induction fuel generalizing cs p with
  | zero => exact .ok _
  | succ fuel ih =>
    rw [Yaml.uriFrom]
    dsimp only
    apply FailsWith.ite
    · apply FailsWith.bind (percentBytes _ _)
      rintro ⟨bytes, p⟩
      dsimp only
      split
      · exact ih _ _
      · exact malformed
    · exact .ok _

theorem uri (p : Place) : Stopping (uri p) := .bind (uriFrom _ _ _) fun _ => .ite malformed (.ok _)

theorem tagHandle (p : Place) : Stopping (tagHandle p) :=
  .ite malformed (.ite (.ok _) (.ite (.ok _) malformed))

theorem tagToken (p : Place) : Stopping (tagToken p) := by
  have ending : ∀ x : Option (List Char) × List Char × Place, Stopping
      (if endsWord x.2.2.peek then pure (Token.tag x.1 x.2.1, x.2.2) else .error .malformed) :=
    fun _ => .ite (.ok _) malformed
  rw [Yaml.tagToken]
  apply FailsWith.ite
  · apply FailsWith.bind (uri _)
    intro _
    exact .ite (.bind (.ok _) ending) (.bind malformed ending)
  · refine .ite (.bind (.ok _) ending) ?_
    apply FailsWith.ite
    · apply FailsWith.bind (tagHandle _)
      intro _
      apply FailsWith.bind (uri _)
      exact fun _ => .bind (.ok _) ending
    · apply FailsWith.bind (uri _)
      exact fun _ => .bind (.ok _) ending

theorem decimalNumber (p : Place) : Stopping (decimalNumber p) := by
  rw [Yaml.decimalNumber]
  dsimp only
  split
  · apply FailsWith.ite
    · exact .error (.version _)
    · exact .ok _
  · exact malformed

theorem directive (p : Place) : Stopping (directive p) := by
  have ending : ∀ x : Token × Place, Stopping (do return (x.1, ← x.2.ignoredLine)) :=
    fun _ => .bind (ignoredLine _) fun _ => .ok _
  rw [Yaml.directive]
  apply guarded
  intro _
  apply FailsWith.ite
  · apply FailsWith.bind (decimalNumber _)
    intro _
    apply guarded
    intro _
    apply FailsWith.bind (decimalNumber _)
    intro _
    exact .ite (.bind (.ok _) ending) (.bind malformed ending)
  · apply FailsWith.ite
    · apply FailsWith.bind (tagHandle _)
      intro _
      apply guarded
      intro _
      apply FailsWith.bind (uri _)
      intro _
      exact .ite (.bind (.ok _) ending) (.bind malformed ending)
    · exact .bind (.ok _) ending

variable (s : Layout)

theorem dropStale : Stopping s.dropStale := .ite malformed (.ok _)

theorem dropKey : Stopping s.dropKey := .ite malformed (.ok _)

theorem markKey : Stopping s.markKey := .ite (.bind (dropKey s) fun _ => .ok _) (.ok _)

theorem restart : Stopping s.restart := .bind (dropKey _) fun _ => .ok _

theorem openFlow (t : Token) : Stopping (s.openFlow t) := .bind (markKey s) fun _ => .ok _

theorem closeFlow (t : Token) : Stopping (s.closeFlow t) := by
  rw [Layout.closeFlow]
  apply guarded
  exact fun _ => .bind (dropKey s) fun _ => .ok _

theorem startEntry (opening : Token) : Stopping (s.startEntry opening) := .ite (.ite (.ok _) malformed) (.ok _)

theorem item : Stopping s.item := .bind (startEntry s _) fun _ => .bind (dropKey _) fun _ => .ok _

theorem key : Stopping s.key := .bind (startEntry s _) fun _ => .bind (dropKey _) fun _ => .ok _

theorem value : Stopping s.value := by
  rw [Layout.value]
  split
  · exact .ok _
  · exact .bind (startEntry s _) fun _ => .bind (dropKey _) fun _ => .ok _

theorem content {read : Place → Except Failure (Token × Place)} (stopping : ∀ p, Stopping (read p)) :
    Stopping (s.content read) := .bind (markKey s) fun _ => .bind (stopping _) fun _ => .ok _

theorem plain : Stopping s.plain := .bind (markKey s) fun _ => .ok _

theorem block (folded : Bool) : Stopping (s.block folded) :=
  .bind (dropKey _) fun _ => .bind (blockScalar _ _ _) fun _ => .ok _

theorem token (c : Char) : Stopping (s.token c) := by
  have named : ∀ f : List Char → Token, Stopping (s.content fun p => do
      let x ← Yaml.anchorName p.next
      return (f x.1, x.2)) :=
    fun f => content s fun _ => .bind (anchorName _) fun _ => .ok _
  rw [Layout.token]
  refine .ite (.bind (restart s) fun _ => .bind (directive _) fun _ => .ok _) ?_
  refine .ite (.bind (restart s) fun _ => .ok _) ?_
  refine .ite (.bind (restart s) fun _ => .ok _) ?_
  refine .ite (openFlow s _) ?_
  refine .ite (openFlow s _) ?_
  refine .ite (closeFlow s _) ?_
  refine .ite (closeFlow s _) ?_
  refine .ite (.bind (dropKey _) fun _ => .ok _) ?_
  refine .ite (item s) ?_
  refine .ite (key s) ?_
  refine .ite (value s) ?_
  refine .ite (named .alias) ?_
  refine .ite (named .anchor) ?_
  refine .ite (content s tagToken) ?_
  refine .ite (block s _) ?_
  refine .ite (block s _) ?_
  refine .ite (content s fun _ => .bind (quotedScalar _ _) fun _ => .ok _) ?_
  exact .ite (plain s) malformed

theorem atToken : Stopping s.atToken := .bind (dropStale _) fun _ => .ok _

theorem step : Stopping s.step := by
  rw [Layout.step]
  split
  · exact .bind (restart s) fun _ => .ok _
  · exact token s _

theorem run (fuel : Nat) {e : Failure} (ended : (s.run fuel).2 = some e) : Token.Stops e := by
  induction fuel generalizing s with
  | zero =>
    cases ended
    exact .form
  | succ fuel ih =>
    rw [Layout.run] at ended
    split at ended
    · rename_i fails
      cases ended
      exact FailsWith.bind (atToken s) step _ fails
    · split at ended
      · cases ended
      · exact ih _ ended

end Stopping

theorem Token.ofText_stops {cs : List Char} {e : Failure} (ended : (Token.ofText cs).2 = some e) : Stops e := by
  rw [Token.ofText] at ended
  split at ended
  · exact Stopping.run _ _ ended
  · cases ended
    exact .form

-- the alias may still become a key, so it is held back until the next token is read
example : Token.ofText "*a\n\"\\U00110000\"".toList = ([], some (.unfit .code)) := by decide +kernel

end Drift.Yaml
