import Drift.Proofs.Recognizer.Names
import Drift.Proofs.Source.Enclosed
import Drift.Proofs.Source.Scan
import Drift.Source.Go

namespace Drift.Source.Go

open Recognizer

structure Head where
  blanks : Text.Run Text.isBlank
  receiver : Option (Aside ')') := none
  name : Identifier
  gap : List Char := []
  blank : ∀ c ∈ gap, Text.isBlank c = true := by exact Text.isBlank_nil
  typeParameters : Option (Aside ']') := none

def Head.text (h : Head) : List Char :=
  "func".toList ++ (h.blanks.text ++ (Aside.textIfAny '(' h.receiver ++ (h.name.text ++ (h.gap ++
    Aside.textIfAny '[' h.typeParameters))))

/-- A head is read as what it is, whatever stands behind the parenthesis. -/
theorem functionHead_text (h : Head) (rest : List Char) :
    functionHead.atStart (h.text ++ '(' :: rest) = some (h.name.text, rest) := by
  obtain ⟨blanks, receiver, name, gap, blank, typeParameters⟩ := h
  have behindGap : ∀ c ∈ (Aside.textIfAny '[' typeParameters ++ '(' :: rest).head?,
      Text.isBlank c = false ∧ Text.isWord c = false :=
    Aside.head_textIfAny typeParameters (by decide) (by simp; decide)
  have behindName : ∀ c ∈ (gap ++ (Aside.textIfAny '[' typeParameters ++ '(' :: rest)).head?, Text.isWord c = false := by
    cases gap with
    | nil => exact fun c mem => (behindGap c mem).2
    | cons x gap =>
      rintro _ ⟨⟩
      exact Text.isWord_of_isBlank (blank x (by simp))
  have firstOfName : Text.isBlank name.first = false ∧ name.first ≠ '(' :=
    ⟨Text.isBlank_of_isWord (isWord_of_isLetter name.letter), Text.ne_of_class name.letter (by decide)⟩
  have behindReceiver : ∀ t, ∀ c ∈ (name.text ++ t).head?, Text.isBlank c = false ∧ c ≠ '(' := by
    rintro t _ ⟨⟩
    exact firstOfName
  have behindFunc : ∀ t, ∀ c ∈ (Aside.textIfAny '(' receiver ++ (name.text ++ t)).head?, Text.isBlank c = false :=
    fun t => Aside.head_textIfAny receiver (by decide) fun c mem => (behindReceiver t c mem).1
  have behindTypes : ∀ c ∈ ('(' :: rest).head?, Text.isBlank c = false ∧ c ≠ '[' := by
    rintro _ ⟨⟩
    decide
  obtain ⟨b₁, receiverRead⟩ := Prefers.asideIfAny (b := blanks.text.getLast? <|> ("func".toList.getLast? <|> none)) receiver
    (behindReceiver (gap ++ (Aside.textIfAny '[' typeParameters ++ '(' :: rest)))
  obtain ⟨b₂, typesRead⟩ := Prefers.asideIfAny (b := gap.getLast? <|> (name.rest.getLast? <|> some name.first))
    typeParameters behindTypes
  simp only [Head.text, List.append_assoc]
  apply Prefers.atStart
  apply Prefers.after (.keyword blanks (behindFunc _))
  apply Prefers.bind receiverRead
  apply Prefers.after (.identifier behindName)
  apply Prefers.after (.gap blank fun c mem => (behindGap c mem).1)
  apply Prefers.bind typesRead
  apply Prefers.after .sign
  apply Prefers.after .remainder
  exact Reads.pure.prefers

theorem functionHead_yields :
    functionHead.Yields fun c a _ => ∃ h : Head, c.rest = h.text ++ '(' :: a.2 ∧ a.1 = h.name.text := by
  refine (Yields.bind (.keyword "func") fun _ => .bind (.asideIfAny '(' ')') fun _ => .bind .identifier fun fn =>
    .bind .gap fun _ => .bind (.asideIfAny '[' ']') fun _ => .bind (.sign '(') fun _ => .bind .remainder fun rest =>
    .pure (fn, rest)).mono ?_
  rintro c _ _ ⟨-, c₁, ⟨blanks, r₁⟩, -, c₂, ⟨receiver, r₂⟩, _, c₃, ⟨name, rfl, r₃⟩, -, c₄, ⟨gap, r₄, blank⟩, -, c₅,
    ⟨typeParameters, r₅⟩, -, c₆, r₆, rest, c₇, r₇, rfl, -⟩
  refine ⟨⟨blanks, receiver, name, gap, blank, typeParameters⟩, ?_, rfl⟩
  simp [Head.text, r₁, r₂, r₃, r₄, r₅, r₆, r₇]

theorem functionHead_eq_some_iff {t fn rest : List Char} :
    functionHead.atStart t = some (fn, rest) ↔ ∃ h : Head, t = h.text ++ '(' :: rest ∧ fn = h.name.text := by
  constructor
  · intro reading
    obtain ⟨_, h, shape, same⟩ := functionHead_yields.of_atStart reading
    exact ⟨h, shape, same⟩
  · rintro ⟨h, rfl, rfl⟩
    exact functionHead_text h rest

/-- What is declared with a name, the text between the parentheses and the text behind them. -/
def declared (file : String) (n : Nat) (fn inside after : List Char) : Signature where
  name := String.ofList fn
  parameters := (fields inside).map fun (fieldName, type) => parameter fieldName type
  results := results after
  file
  line := n
  visibility := if fn.head?.any Char.isUpper then .pub else .priv

def Untested (line : List Char) : Prop := ¬ "*testing.".toList <:+: line

instance (line : List Char) : Decidable (Untested line) := decidable_of_iff _ (not_congr Text.contains_iff)

theorem lineSignatures_eq_singleton_iff {file : String} {n : Nat} {line : List Char} {s : Signature} :
    lineSignatures file n line = [s] ↔
      Untested (Text.trim line) ∧ ∃ (h : Head) (inside after : List Char),
        Text.trim line = h.text ++ '(' :: (inside ++ ')' :: after) ∧ Passes 1 1 inside ∧
          s = declared file n h.name.text inside after := by
  rw [lineSignatures, Untested, ← Text.contains_iff]
  cases Text.contains "*testing.".toList (Text.trim line) with
  | true => simp
  | false =>
    simp only [Bool.false_eq_true, if_false, not_false_eq_true, true_and]
    constructor
    · intro read
      cases head : functionHead.atStart (Text.trim line) with
      | none => simp [head] at read
      | some parts =>
        obtain ⟨fn, rest⟩ := parts
        cases closed : enclosed? rest with
        | none => simp [head, closed] at read
        | some parts =>
          obtain ⟨inside, after⟩ := parts
          obtain ⟨h, shape, rfl⟩ := functionHead_eq_some_iff.1 head
          obtain ⟨rfl, passes⟩ := enclosed_eq_some_iff.1 closed
          simp only [head, closed, List.cons.injEq, and_true] at read
          exact ⟨h, inside, after, shape, passes, read.symm⟩
    · rintro ⟨h, inside, after, shape, passes, rfl⟩
      rw [functionHead_eq_some_iff.2 ⟨h, shape, rfl⟩]
      simp only [enclosed_eq_some_iff.2 ⟨rfl, passes⟩]
      rfl

theorem signatures_line (file : String) {line : List Char} (filled : line ≠ [])
    (whole : ∀ c ∈ line, Text.isLineBreak c = false) : signatures file line = lineSignatures file 1 line :=
  eachLine_line filled whole

end Drift.Source.Go
