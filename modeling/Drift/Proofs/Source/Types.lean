import Drift.Proofs.Source.MethodHead
import Drift.Proofs.Source.Parts
import Mathlib.Data.List.TakeWhile

namespace Drift.Source

open Recognizer

theorem Java.isBlank_of_isTypeChar {c : Char} (fits : Java.isTypeChar c = true) : Text.isBlank c = false :=
  Text.isBlank_of_class (p := Java.isTypeChar) (by decide +kernel) fits

def isTypeSign (c : Char) : Bool := Java.isTypeChar c || isSpace c || ",?&[]<>".toList.contains c

theorem isTypeSign_of_isSpace {c : Char} (space : isSpace c = true) : isTypeSign c = true := by
  rw [isTypeSign, space, Bool.or_true]
  rfl

theorem isLineBreak_of_isTypeSign {c : Char} (sign : isTypeSign c = true) : Text.isLineBreak c = false := by
  rw [isTypeSign, Bool.or_eq_true, Bool.or_eq_true] at sign
  rcases sign with (type | space) | mark
  · exact Text.isLineBreak_of_not_blank (Java.isBlank_of_isTypeChar type)
  · exact isLineBreak_of_isSpace space
  · have plain : ∀ x ∈ ",?&[]<>".toList, Text.isLineBreak x = false := forall_of_all (by decide)
    exact plain c (by simpa using mark)

theorem isQuote_of_isTypeSign {c : Char} (sign : isTypeSign c = true) : isQuote c = false := by
  have single : c ≠ '\'' := Text.ne_of_class sign (by decide)
  have double : c ≠ '"' := Text.ne_of_class sign (by decide)
  have back : c ≠ '\x60' := Text.ne_of_class sign (by decide)
  simp [isQuote, single, double, back]

structure Arguments where
  text : List Char
  balanced : Balanced typeBrackets (fun _ => True) text
  signs : ∀ c ∈ text, isTypeSign c = true

structure Applied (p : Char → Bool) where
  base : Text.Run p
  arguments : Option Arguments := none

namespace Applied

variable {p : Char → Bool} (a : Applied p)

def argumentText : List Char := angled (a.arguments.map (·.text))

def text : List Char := a.base.text ++ a.argumentText

/-- The name ends where the arguments begin, or what stands behind. -/
theorem exists_behind (u : List Char) : ∃ v, a.text ++ u = a.base.text ++ v ∧ ∀ c ∈ v.head?, c = '<' ∨ c ∈ u.head? := by
  refine ⟨a.argumentText ++ u, List.append_assoc _ _ _, ?_⟩
  rw [argumentText]
  cases a.arguments with
  | none => exact fun c mem => .inr mem
  | some arguments =>
    rintro _ ⟨⟩
    exact .inl rfl

theorem argumentText_signs : ∀ c ∈ a.argumentText, isTypeSign c = true := by
  rw [argumentText]
  cases a.arguments with
  | none => simp [angled]
  | some arguments =>
    simp only [Option.map_some, angled, List.forall_mem_cons, List.forall_mem_append]
    exact ⟨by decide, arguments.signs, by decide, by simp⟩

theorem signs (names : ∀ c, p c = true → isTypeSign c = true) : ∀ c ∈ a.text, isTypeSign c = true :=
  List.forall_mem_append.2 ⟨fun c mem => names c (a.base.fits c mem), a.argumentText_signs⟩

theorem balanced (none : ∀ x ∈ ',' :: '\'' :: '"' :: '\x60' :: typeBrackets, p x = false) :
    Balanced typeBrackets (· ≠ ',') a.text := by
  have base : Balanced typeBrackets (· ≠ ',') a.base.text :=
    .of_plain fun c mem => plain_of_marks none (a.base.fits c mem)
  refine base.append ?_
  rw [argumentText]
  cases a.arguments with
  | none => exact .nil
  | some arguments =>
    -- no argument ends with the shaft of an arrow
    have arrow : arguments.text.getLast?.any isShaft = false := by
      cases last : arguments.text.getLast? with
      | none => rfl
      | some c =>
        have sign := arguments.signs c (List.mem_of_getLast? last)
        have equals : c ≠ '=' := Text.ne_of_class sign (by decide)
        have dash : c ≠ '-' := Text.ne_of_class sign (by decide)
        simp [isShaft, equals, dash]
    exact .group (by decide) (fun _ => arrow) arguments.balanced .nil

/-- A type is none of the words that its name is not, whatever marks stand behind the name. -/
theorem text_not_mem {t v : List Char} (shape : t = a.base.text ++ v) (stop : ∀ c ∈ v.head?, p c = false) {ws : List String}
    (chars : ∀ w ∈ ws, ∀ c ∈ w.toList, p c = true) (other : String.ofList a.base.text ∉ ws) : String.ofList t ∉ ws := by
  intro mem
  have letters := chars _ mem
  rw [String.toList_ofList] at letters
  have taken : t.takeWhile p = a.base.text := by rw [shape, Text.takeWhile_append_of_stop a.base.fits stop]
  rw [List.takeWhile_eq_self_iff.2 letters] at taken
  exact other (by rwa [← taken])

/-- A type is read with all its arguments in front of a text that leads to the parenthesis of a method. -/
theorem prefers {β : Type} {f : List Char → Recognizer β} {d : β} {b : Option Char} {t v : List Char}
    (angle : p '<' = false) (toParen : ∀ w, (f w).ToParen) (none : '(' ∉ t) (more : ∃ c ∈ t, Text.isBlank c = false)
    (stop : ∀ x ∈ (t ++ '(' :: v).head?, p x = false ∧ x ≠ '<')
    (tail : ∀ b, ∃ c', (f a.text).Prefers ⟨b, t ++ '(' :: v⟩ d c') :
    ∃ c', (Java.typeName p >>= f).Prefers ⟨b, a.text ++ (t ++ '(' :: v)⟩ d c' := by
  obtain ⟨c, inside, word⟩ := more
  have early : ∀ w ∈ a.arguments.map (·.text), ∀ x y, w = x ++ '>' :: y →
      ∀ s b, (f s).Refuses ⟨b, y ++ '>' :: (t ++ '(' :: v)⟩ := by
    intro w written x y shape s b
    obtain ⟨arguments, -, rfl⟩ := Option.map_eq_some_iff.1 written
    refine (toParen s).refuses ?_ inside word
    rw [List.mem_append, List.mem_cons, not_or, not_or]
    refine ⟨fun mem => ?_, by decide, none⟩
    exact Text.ne_of_class (x := '(') (arguments.signs '(' (by simp [shape, mem])) (by decide) rfl
  have reads := Prefers.typeName (b := b) angle stop early tail
  rwa [← List.append_assoc] at reads

end Applied

end Drift.Source
