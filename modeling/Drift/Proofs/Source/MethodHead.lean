import Drift.Proofs.Recognizer.Repeated
import Drift.Proofs.Text.Joining
import Drift.Source.Java
import Mathlib.Data.List.Basic

namespace Drift.Recognizer

variable {α β : Type} {b : Option Char} {t u v : List Char}

/-- Every reading passes a parenthesis, the first one there is, and only blanks stand between it and a `>` in front. -/
def ToParen (r : Recognizer α) : Prop :=
  r.Yields fun c _ _ => ∃ u v, c.rest = u ++ '(' :: v ∧ '(' ∉ u ∧
    ∀ x y, u = x ++ '>' :: y → ∀ c ∈ y, Text.isBlank c = true

namespace ToParen

theorem paren {f : Unit → Recognizer α} [∀ a, Forward (f a)] : (sign '(' >>= f).ToParen := by
  refine (Yields.bind (.sign '(') fun a => Forward.yields (r := f a)).mono ?_
  rintro c _ _ ⟨-, c', read, -⟩
  exact ⟨[], c'.rest, read, by simp, by simp⟩

def Plain (c : Char) : Prop := c ≠ '(' ∧ c ≠ '>'

theorem span {r : Recognizer α} {f : α → Recognizer β} (head : r.Spans Plain) (tail : ∀ a, (f a).ToParen) :
    (r >>= f).ToParen := by
  refine (Yields.bind head tail).mono ?_
  rintro c _ _ ⟨a, c', ⟨w, first, plain⟩, u, v, rest, none, blank⟩
  refine ⟨w ++ u, v, by rw [first, rest, List.append_assoc], ?_, ?_⟩
  · rw [List.mem_append, not_or]
    exact ⟨fun mem => (plain _ mem).1 rfl, none⟩
  · intro x y shape
    rcases List.append_eq_append_iff.1 shape with ⟨z, front, behind⟩ | ⟨z, front, behind⟩
    · exact blank z y behind
    · cases z with
      | nil => exact blank [] y behind.symm
      | cons d z =>
        cases behind
        exact absurd rfl (plain '>' (by simp [front])).2

/-- Arguments in angle brackets may stand directly in front of the parenthesis. -/
theorem angles {p : Char → Bool} {f : Unit → Recognizer α} [∀ a, Forward (f a)] (angle : p '>' = false)
    (paren : p '(' = false) :
    (skip (optional (group '<' p '>')) >>= fun _ => gap >>= fun _ => sign '(' >>= f).ToParen := by
  have inside : (group '<' p '>').Yields fun c w c' => c.rest = '<' :: (w ++ '>' :: c'.rest) ∧ ∀ x ∈ w, p x = true := by
    rw [group, angle, if_neg Bool.false_ne_true]
    refine (Yields.bind (.sign '<') fun _ => .bind (.run p) fun w => .bind (.sign '>') fun _ => .pure w).mono ?_
    rintro c _ _ ⟨-, c₁, first, w, c₂, ⟨inside, fits⟩, -, c₃, last, rfl, rfl⟩
    exact ⟨by rw [first, inside, last], fits⟩
  have onward := fun a => Forward.yields (r := f a)
  refine (Yields.bind (.skip (.optional inside)) fun _ => .bind .gap fun _ => .bind (.sign '(') fun a => onward a).mono ?_
  rintro c _ _ ⟨-, c₁, ⟨-, ⟨w, -, read, fits⟩ | ⟨-, rfl⟩⟩, -, c₂, ⟨g, blanks, blank⟩, -, c₃, last, -⟩
  · have blankPlain : ∀ x ∈ g, x ≠ '(' ∧ x ≠ '>' := fun x mem =>
      ⟨Text.ne_of_class (blank x mem) (by decide), Text.ne_of_class (blank x mem) (by decide)⟩
    have argumentPlain : ∀ x ∈ w, x ≠ '(' ∧ x ≠ '>' := fun x mem =>
      ⟨Text.ne_of_class (fits x mem) paren, Text.ne_of_class (fits x mem) angle⟩
    refine ⟨'<' :: (w ++ '>' :: g), c₃.rest, by rw [read, blanks, last]; simp, ?_, ?_⟩
    · simp only [List.mem_cons, List.mem_append, not_or]
      exact ⟨by decide, fun mem => (argumentPlain _ mem).1 rfl, by decide, fun mem => (blankPlain _ mem).1 rfl⟩
    · -- the only `>` is the one that closes the arguments
      intro x y shape
      have noAngle : '>' ∉ '<' :: w := by
        simp only [List.mem_cons, not_or]
        exact ⟨by decide, fun mem => (argumentPlain _ mem).2 rfl⟩
      have cut : ('<' :: w) ++ '>' :: g = x ++ '>' :: y := shape
      obtain ⟨-, -, rfl⟩ := (List.append_cons_inj_of_notMem noAngle fun mem => (blankPlain _ mem).2 rfl).1 cut
      exact blank
  · refine ⟨g, c₃.rest, by rw [blanks, last], fun mem => ?_, ?_⟩
    · exact absurd rfl (Text.ne_of_class (blank _ mem) (x := '(') (by decide))
    · intro x y shape c mem
      exact blank c (by simp [shape, mem])

/-- No `>` leads to a parenthesis with other characters than blanks in between. -/
theorem refuses {r : Recognizer α} (h : r.ToParen) {c : Char} (none : '(' ∉ u ++ '>' :: t) (mem : c ∈ t)
    (other : Text.isBlank c = false) : r.Refuses ⟨b, u ++ '>' :: (t ++ '(' :: v)⟩ := by
  refine .of_yields h ?_
  rintro _ _ ⟨x, y, shape, first, blank⟩
  have same : u ++ '>' :: t = x := by
    have cut : (u ++ '>' :: t) ++ '(' :: v = x ++ '(' :: y := by simpa using shape
    exact (Text.eq_of_append_cons none first cut).1
  rw [blank u t same.symm c mem] at other
  cases other

end ToParen

def angled : Option (List Char) → List Char
  | none => []
  | some a => '<' :: (a ++ ['>'])

/-- A type is read with all its arguments, if from no `>` within them the rest of the head could be read. -/
theorem Prefers.typeName {p : Char → Bool} {f : List Char → Recognizer β} {d : β} {base : Text.Run p}
    {arguments : Option (List Char)} (angle : p '<' = false) (stop : ∀ x ∈ t.head?, p x = false ∧ x ≠ '<')
    (early : ∀ a ∈ arguments, ∀ u v, a = u ++ '>' :: v → ∀ w b, (f w).Refuses ⟨b, v ++ '>' :: t⟩)
    (tail : ∀ b, ∃ c'', (f (base.text ++ angled arguments)).Prefers ⟨b, t⟩ d c'') :
    ∃ c'', (Source.Java.typeName p >>= f).Prefers ⟨b, base.text ++ (angled arguments ++ t)⟩ d c'' := by
  cases arguments with
  | none =>
    obtain ⟨c'', tail⟩ := tail (base.text.getLast? <|> b)
    rw [angled, List.append_nil] at tail
    have refused : (sign '<').Refuses ⟨base.text.getLast? <|> b, t⟩ := by
      cases t with
      | nil => exact .skip .char_nil
      | cons x t => exact .sign (stop x rfl).2
    refine ⟨c'', ?_⟩
    apply Prefers.assoc
    apply Prefers.after (.run1_append base.nonempty base.fits fun x mem => (stop x mem).1)
    apply Prefers.assoc
    apply Prefers.after (.optional_none (.bind refused))
    apply Prefers.after .pure
    rwa [Option.getD_none, List.append_nil]
  | some a =>
    obtain ⟨c'', tail⟩ := tail (some '>')
    refine ⟨c'', ?_⟩
    have shape : angled (some a) ++ t = '<' :: (a ++ '>' :: t) := by simp [angled]
    rw [shape]
    apply Prefers.assoc
    apply Prefers.after (.run1_append base.nonempty base.fits (by simpa using angle))
    apply Prefers.assoc
    apply Prefers.bind_optional_some
    apply Prefers.assoc
    apply Prefers.after .sign
    apply Prefers.assoc
    apply Prefers.bind_upTo
    · intro u v split
      exact early a rfl u v split _ _
    · apply Prefers.after .pure
      exact tail

end Drift.Recognizer
