import Drift.Proofs.Recognizer.Replace
import Drift.Proofs.Source.Java
import Drift.Proofs.Source.Types
import Drift.Proofs.Text.Words
import Mathlib.Data.List.Basic

namespace Drift.Source.Java

open Recognizer

theorem isTypeSign_of_isTypeChar {c : Char} (fits : isTypeChar c = true) : isTypeSign c = true := by
  rw [isTypeSign, fits]
  rfl

def methodModifiers : List String := ["static", "final", "abstract", "synchronized", "native", "default", "strictfp"]

def arrays (dimensions : Nat) : List Char := (List.replicate dimensions "[]".toList).flatten

theorem arrays_balanced (n : Nat) : Balanced typeBrackets (· ≠ ',') (arrays n) := by
  induction n with
  | zero => exact .nil
  | succ n ih => exact .pair (by decide) ih

theorem mem_arrays {n : Nat} {c : Char} (mem : c ∈ arrays n) : c = '[' ∨ c = ']' := by
  rw [arrays, List.mem_flatten] at mem
  obtain ⟨mark, inside, mem⟩ := mem
  rw [List.eq_of_mem_replicate inside] at mem
  simpa using mem

/-- A type: a name that is no keyword of a declaration, type arguments, and dimensions. -/
structure TypeText extends Applied isTypeChar where
  other : String.ofList base.text ∉ reservedWords ++ methodModifiers
  dimensions : Nat := 0

namespace TypeText

variable (t : TypeText)

def text : List Char := t.toApplied.text ++ arrays t.dimensions

theorem signs : ∀ c ∈ t.text, isTypeSign c = true := by
  refine List.forall_mem_append.2 ⟨t.toApplied.signs fun c => isTypeSign_of_isTypeChar, fun c mem => ?_⟩
  rcases mem_arrays mem with rfl | rfl <;> decide

theorem balanced : Balanced typeBrackets (· ≠ ',') t.text :=
  (t.toApplied.balanced (forall_of_all (by decide))).append (arrays_balanced t.dimensions)

/-- The name of a type ends where its arguments begin, or its dimensions, or what stands behind. -/
theorem exists_behind (u : List Char) :
    ∃ v, t.text ++ u = t.base.text ++ v ∧ ∀ c ∈ v.head?, c = '<' ∨ c = '[' ∨ c ∈ u.head? := by
  obtain ⟨v, shape, head⟩ := t.toApplied.exists_behind (arrays t.dimensions ++ u)
  refine ⟨v, by rw [text, List.append_assoc, shape], fun c mem => (head c mem).imp_right fun behind => ?_⟩
  cases dimensions : t.dimensions with
  | zero =>
    rw [dimensions] at behind
    exact .inr behind
  | succ n =>
    rw [dimensions] at behind
    cases behind
    exact .inl rfl

theorem head_text (u : List Char) : ∀ c ∈ (t.text ++ u).head?, isTypeChar c = true := by
  obtain ⟨v, shape, -⟩ := t.exists_behind u
  obtain ⟨x, w, base⟩ := List.exists_cons_of_ne_nil t.base.nonempty
  have first : isTypeChar x = true := t.base.fits x (by simp [base])
  simpa [shape, base] using first

end TypeText

/-- What stands in the parentheses of an annotation: every quote and every other bracket is closed in turn. -/
structure NoteArguments where
  text : List Char
  balanced : Balanced typeBrackets (fun _ => True) text
  free : ∀ c ∈ text, c ≠ '(' ∧ c ≠ ')'
  whole : ∀ c ∈ text, Text.isLineBreak c = false

def NoteArguments.enclosed : Option NoteArguments → List Char
  | none => []
  | some a => '(' :: (a.text ++ [')'])

structure Note where
  name : Text.Run isDottedWord
  arguments : Option NoteArguments := none
  gap : Text.Run isSpace

namespace Note

variable (n : Note)

def body : List Char := n.name.text ++ (NoteArguments.enclosed n.arguments ++ n.gap.text)

def text : List Char := '@' :: n.body

theorem balanced : Balanced typeBrackets (· ≠ ',') n.text := by
  have name : Balanced typeBrackets (· ≠ ',') n.name.text :=
    .of_plain fun c mem => plain_of_marks (forall_of_all (by decide)) (n.name.fits c mem)
  have arguments : Balanced typeBrackets (· ≠ ',') (NoteArguments.enclosed n.arguments) := by
    cases n.arguments with
    | none => exact .nil
    | some a => exact .group (by decide) (fun same => absurd same (by decide)) a.balanced .nil
  exact .char (by decide) (by decide) (by decide) (name.append (arguments.append (balanced_space n.gap.fits)))

theorem passes : Passes 1 1 n.text := by
  have name : Passes 1 1 ('@' :: n.name.text) := by
    refine .free (List.forall_mem_cons.2 ⟨by decide, fun c mem => ?_⟩)
    exact ⟨Text.ne_of_class (n.name.fits c mem) (by decide), Text.ne_of_class (n.name.fits c mem) (by decide)⟩
  have gap : Passes 1 1 n.gap.text := .free fun c mem =>
    ⟨Text.ne_of_class (n.gap.fits c mem) (by decide), Text.ne_of_class (n.gap.fits c mem) (by decide)⟩
  have arguments : Passes 1 1 (NoteArguments.enclosed n.arguments) := by
    cases n.arguments with
    | none => exact .nil
    | some a => exact .enclosed (.free a.free) (by decide)
  exact name.append (arguments.append gap)

theorem whole : ∀ c ∈ n.text, Text.isLineBreak c = false := by
  have arguments : ∀ c ∈ NoteArguments.enclosed n.arguments, Text.isLineBreak c = false := by
    cases n.arguments with
    | none => simp [NoteArguments.enclosed]
    | some a =>
      simp only [NoteArguments.enclosed, List.forall_mem_cons, List.forall_mem_append]
      exact ⟨by decide, a.whole, by decide, by simp⟩
  have name : ∀ c ∈ n.name.text, Text.isLineBreak c = false := fun c mem =>
    Text.isLineBreak_of_not_blank (isBlank_of_isDottedWord (n.name.fits c mem))
  simp only [text, body, List.forall_mem_cons, List.forall_mem_append]
  exact ⟨by decide, name, arguments, fun c mem => isLineBreak_of_isSpace (n.gap.fits c mem)⟩

end Note

theorem forgetful_parameterMark : Forgetful parameterMark := .sign_bind

theorem parameterMark_note (n : Note) {t : List Char} (stop : ∀ c ∈ t.head?, Text.isBlank c = false) :
    ∃ b, parameterMark.Prefers (.start ('@' :: (n.body ++ t))) () ⟨b, t⟩ := by
  have blank : ∀ c ∈ n.gap.text, Text.isBlank c = true := fun c mem => isBlank_of_isSpace (n.gap.fits c mem)
  obtain ⟨g, rest, gap⟩ := List.exists_cons_of_ne_nil n.gap.nonempty
  have space : isSpace g = true := n.gap.fits g (by simp [gap])
  have nameStop : ∀ c ∈ (NoteArguments.enclosed n.arguments ++ (n.gap.text ++ t)).head?, isDottedWord c = false := by
    cases n.arguments with
    | none =>
      have other : isDottedWord g = false :=
        Text.class_of_isBlank (fun _ => isBlank_of_isDottedWord) (isBlank_of_isSpace space)
      simpa [NoteArguments.enclosed, gap] using other
    | some a =>
      rintro _ ⟨⟩
      decide
  have arguments : ∀ b, ∃ b', (skip (optional (group '(' (isNot ')') ')'))).Prefers
      ⟨b, NoteArguments.enclosed n.arguments ++ (n.gap.text ++ t)⟩ () ⟨b', n.gap.text ++ t⟩ := by
    intro b
    cases n.arguments with
    | none =>
      have refused : (group '(' (isNot ')') ')').Refuses ⟨b, n.gap.text ++ t⟩ := by
        rw [gap]
        exact .bind (.sign (Text.ne_of_class space (by decide)))
      exact ⟨b, .skip (Reads.optional_none refused).prefers⟩
    | some a =>
      have noClose : ')' ∉ a.text := fun mem => (a.free _ mem).2 rfl
      have shape : NoteArguments.enclosed (some a) ++ (n.gap.text ++ t) = '(' :: (a.text ++ ')' :: (n.gap.text ++ t)) := by
        simp [NoteArguments.enclosed]
      rw [shape]
      exact ⟨_, .skip (.optional_some (Reads.group_until noClose).prefers)⟩
  obtain ⟨b, enclosed⟩ := arguments (n.name.text.getLast? <|> some '@')
  refine ⟨n.gap.text.getLast? <|> b, ?_⟩
  rw [Note.body, List.append_assoc, List.append_assoc]
  apply Prefers.after .sign
  apply Prefers.after (.skip (.run1_append n.name.nonempty n.name.fits nameStop))
  apply Prefers.bind enclosed
  exact (Reads.gap blank stop).prefers

structure Parameter where
  notes : List Note := []
  isFinal : Bool := false
  type : TypeText
  variadic : Bool := false
  single : Text.joinWith [' '] (Text.words (type.text ++ (if variadic then "...".toList else []))) =
    type.text ++ (if variadic then "...".toList else [])
  gap : Text.Run isSpace
  name : DollarName

namespace Parameter

variable (p : Parameter)

def dots : List Char := if p.variadic then "...".toList else []

def spelled : List Char := p.type.text ++ p.dots

def typed : List Char := p.spelled ++ (p.gap.text ++ p.name.text)

def finalText : List Char := if p.isFinal then "final ".toList else []

def noteText : List Char := p.notes.flatMap Note.text

def text : List Char := p.noteText ++ (p.finalText ++ p.typed)

def declared : Signature.Parameter := parameter p.name.text p.spelled

theorem dots_cases : p.dots = "...".toList ∨ p.dots = [] := by
  rw [dots]
  cases p.variadic <;> simp

theorem finalText_cases : p.finalText = "final ".toList ∨ p.finalText = [] := by
  rw [finalText]
  cases p.isFinal <;> simp

theorem head_bare : ∀ c ∈ (p.finalText ++ p.typed).head?, isTypeChar c = true := by
  rcases p.finalText_cases with shape | shape
  · rw [shape]
    rintro _ ⟨⟩
    decide
  · rw [shape, List.nil_append, typed, spelled, List.append_assoc]
    exact p.type.head_text _

theorem typed_signs : ∀ c ∈ p.finalText ++ p.typed, isTypeSign c = true := by
  have final : ∀ c ∈ p.finalText, isTypeSign c = true := by
    rcases p.finalText_cases with shape | shape <;> rw [shape]
    · exact forall_of_all (by decide)
    · simp
  have dots : ∀ c ∈ p.dots, isTypeSign c = true := by
    rcases p.dots_cases with shape | shape <;> rw [shape]
    · exact forall_of_all (by decide)
    · simp
  have gap : ∀ c ∈ p.gap.text, isTypeSign c = true := fun c mem => isTypeSign_of_isSpace (p.gap.fits c mem)
  have name : ∀ c ∈ p.name.text, isTypeSign c = true := by
    intro c mem
    refine isTypeSign_of_isTypeChar ?_
    rw [isTypeChar, p.name.isDollarWord c mem]
    rfl
  simp only [typed, spelled, List.forall_mem_append]
  exact ⟨final, ⟨p.type.signs, dots⟩, gap, name⟩

theorem head_behind (notes : List Note) :
    ∀ c ∈ (notes.flatMap Note.text ++ (p.finalText ++ p.typed)).head?, Text.isBlank c = false := by
  cases notes with
  | nil => exact fun c mem => isBlank_of_isTypeChar (p.head_bare c mem)
  | cons n notes =>
    rintro _ ⟨⟩
    decide

theorem last_typed (u : List Char) : ∀ c ∈ (u ++ p.typed).getLast?, Text.isBlank c = false := by
  intro c mem
  rw [typed, ← List.append_assoc, ← List.append_assoc, List.getLast?_append_of_ne_nil _ p.name.filled] at mem
  exact p.name.isBlank c (List.mem_of_getLast? mem)

theorem replace_text : parameterMark.replace (fun _ => []) p.text = p.finalText ++ p.typed := by
  have none : ∀ c ∈ p.finalText ++ p.typed, ∀ t, parameterMark.first (.start (c :: t)) = none := by
    intro c mem t
    have other : c ≠ '@' := Text.ne_of_class (p.typed_signs c mem) (by decide)
    exact Refuses.first (.bind (.sign other))
  have bare := forgetful_parameterMark.replace_passed (f := fun _ => []) (t := []) none
  simp only [replace_nil, List.append_nil] at bare
  rw [text, noteText]
  -- one annotation is removed after the other
  induction p.notes with
  | nil => exact bare
  | cons n notes ih =>
    obtain ⟨b, reads⟩ := parameterMark_note n (p.head_behind notes)
    have step := forgetful_parameterMark.replace_reading (f := fun _ => []) reads.first
    rw [ih, List.nil_append] at step
    rw [List.flatMap_cons, List.append_assoc]
    exact step

/-- The type does not start with the word `final`: behind a name stands a bracket or a dot. -/
theorem words_spelled : ∃ w ws, Text.words p.spelled = w :: ws ∧ w ≠ "final".toList := by
  obtain ⟨v, shape, behind⟩ := p.type.exists_behind p.dots
  have other : p.type.base.text ∉ ["final".toList] := by
    rw [List.mem_singleton]
    intro same
    refine p.type.other ?_
    rw [same]
    decide
  have marks : ∀ c ∈ v.head?, ∀ w ∈ ["final".toList], c ∉ w := by
    intro c mem
    rcases behind c mem with rfl | rfl | dot
    · decide
    · decide
    · rcases p.dots_cases with written | written <;> rw [written] at dot
      · cases dot
        decide
      · cases dot
  obtain ⟨w, ws, words, first⟩ := Text.words_of_run p.type.base (fun c => isBlank_of_isTypeChar) other marks
  exact ⟨w, ws, by rw [spelled, shape, words], by simpa using first⟩

theorem parameterOf_text : parameterOf p.text = some p.declared := by
  have trimmed : Text.trim (p.finalText ++ p.typed) = p.finalText ++ p.typed :=
    Text.trim_eq_self (p.head_behind []) (p.last_typed p.finalText)
  have typed : Text.words p.typed = Text.words p.spelled ++ [p.name.text] := by
    rw [Parameter.typed, Text.words_append_gap p.gap.nonempty fun c mem => isBlank_of_isSpace (p.gap.fits c mem),
      Text.words_word p.name.filled p.name.isBlank]
  obtain ⟨w, ws, words, other⟩ := p.words_spelled
  -- the word `final` is dropped where it stands for itself, and is not the first word of the type
  have kept : (if (Text.words (p.finalText ++ p.typed)).head? = some "final".toList then
      (Text.words (p.finalText ++ p.typed)).tail else Text.words (p.finalText ++ p.typed)) = Text.words p.typed := by
    rcases p.finalText_cases with shape | shape
    · have front : "final ".toList ++ p.typed = "final".toList ++ ' ' :: p.typed := rfl
      have word : Text.words "final".toList = ["final".toList] := by decide
      rw [shape, front, Text.words_append_blank (by decide), word]
      rfl
    · rw [shape, List.nil_append, typed, words, if_neg]
      simpa using other
  have back : Text.joinWith [' '] (Text.words p.spelled) = p.spelled := p.single
  simp only [parameterOf, replace_text, trimmed]
  rw [kept, typed, typedName_concat (by simp [words]), back]
  rfl

theorem isTypedPart : IsTypedPart p.text := by
  have notes : Balanced typeBrackets (· ≠ ',') p.noteText := by
    rw [noteText]
    induction p.notes with
    | nil => exact .nil
    | cons n notes ih => exact n.balanced.append ih
  have final : Balanced typeBrackets (· ≠ ',') p.finalText := by
    refine .of_plain ?_
    rcases p.finalText_cases with shape | shape <;> rw [shape]
    · exact forall_of_all (by decide)
    · simp
  have dots : Balanced typeBrackets (· ≠ ',') p.dots := by
    refine .of_plain ?_
    rcases p.dots_cases with shape | shape <;> rw [shape]
    · exact forall_of_all (by decide)
    · simp
  have name : Balanced typeBrackets (· ≠ ',') p.name.text :=
    .of_plain fun c mem => plain_of_marks (forall_of_all (by decide)) (p.name.isDollarWord c mem)
  have whole : ∀ c ∈ p.noteText, Text.isLineBreak c = false := by
    intro c mem
    obtain ⟨n, -, mem⟩ := List.mem_flatMap.1 mem
    exact n.whole c mem
  refine ⟨by simp [text, typed, DollarName.text], Text.trim_eq_self (p.head_behind p.notes) ?_, ?_, ?_⟩
  · rw [text, ← List.append_assoc]
    exact p.last_typed (p.noteText ++ p.finalText)
  · exact notes.append (final.append ((p.type.balanced.append dots).append ((balanced_space p.gap.fits).append name)))
  · exact List.forall_mem_append.2 ⟨whole, fun c mem => isLineBreak_of_isTypeSign (p.typed_signs c mem)⟩

theorem passes : Passes 1 1 p.text := by
  have notes : Passes 1 1 p.noteText := by
    rw [noteText]
    induction p.notes with
    | nil => exact .nil
    | cons n notes ih => exact n.passes.append ih
  refine notes.append (.free fun c mem => ?_)
  exact ⟨Text.ne_of_class (p.typed_signs c mem) (by decide), Text.ne_of_class (p.typed_signs c mem) (by decide)⟩

end Parameter

end Drift.Source.Java
