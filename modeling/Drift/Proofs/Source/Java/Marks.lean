import Drift.Proofs.Recognizer.Allowed
import Drift.Proofs.Source.Java.Declarations

namespace Drift.Source.Java

open Recognizer

def unmarkedHead : Recognizer Method := do
  let visibility ← optional do
    let v ← oneOf visibilityWords
    gap1
    return v
  keywords methodModifiers
  skip (optional do
    sign '<'
    skip (run1 (isNot '>'))
    sign '>'
    gap1)
  let base ← typeName isTypeChar
  behindType visibility base

theorem methodHead_eq : methodHead = (do gap; repeated methodMark; unmarkedHead) := rfl

def markEnd : Recognizer Unit := do
  skip (optional (group '(' (isNot ')') ')'))
  gap1

theorem methodMark_eq : methodMark = (do sign '@'; skip (run1 Text.isWord); markEnd) := rfl

variable {b : Option Char} {t u w rest : List Char} {ρ : Type} {k : Unit → Cursor → Option ρ}

theorem gap1_refuses (visible : ∀ x ∈ t.head?, Text.isBlank x = false) : gap1.Refuses ⟨b, t⟩ := by
  cases t with
  | nil => exact .skip (.bind .char_nil)
  | cons x t => exact .skip (.bind (.char (visible x rfl)))

theorem markEnd_other (other : ∀ x ∈ t.head?, x ≠ '(') : markEnd ρ ⟨b, t⟩ k = gap1 ρ ⟨b, t⟩ k := by
  have none : (group '(' (isNot ')') ')').Refuses ⟨b, t⟩ := by
    cases t with
    | nil => exact .bind (.skip .char_nil)
    | cons x t => exact .bind (.sign (other x rfl))
  exact (Reads.optional_none none).skip ρ _

/-- The argument ends at the first parenthesis that closes: without it no blank could follow. -/
theorem markEnd_argument (free : ')' ∉ u) :
    markEnd ρ ⟨b, '(' :: (u ++ ')' :: rest)⟩ k = gap1 ρ ⟨some ')', rest⟩ k := by
  have choice : markEnd ρ ⟨b, '(' :: (u ++ ')' :: rest)⟩ k =
      (group '(' (isNot ')') ')' ρ ⟨b, '(' :: (u ++ ')' :: rest)⟩ (fun _ c => gap1 ρ c k) <|>
        gap1 ρ ⟨b, '(' :: (u ++ ')' :: rest)⟩ k) := orElse_apply _ _ _ _
  have without : gap1.Refuses ⟨b, '(' :: (u ++ ')' :: rest)⟩ := gap1_refuses (by rintro _ ⟨⟩; decide)
  rw [choice, without ρ k, Reads.group_until free ρ]
  cases gap1 ρ ⟨some ')', rest⟩ k <;> rfl

theorem markEnd_unclosed (unclosed : ')' ∉ u) : markEnd.Refuses ⟨b, '(' :: u⟩ := by
  have inside : (run (isNot ')')).Reads ⟨some '(', u ++ []⟩ u ⟨u.getLast? <|> some '(', []⟩ := by
    refine .run (fun x mem => ?_) (by simp)
    rw [isNot, bne_iff_ne]
    rintro rfl
    exact unclosed mem
  rw [List.append_nil] at inside
  have noGroup : (group '(' (isNot ')') ')').Refuses ⟨b, '(' :: u⟩ := .after .sign (.after inside (.bind (.skip .char_nil)))
  have noBlank : gap1.Refuses ⟨b, '(' :: u⟩ := gap1_refuses (by rintro _ ⟨⟩; decide)
  exact .after (Reads.optional_none noGroup).skip noBlank

theorem definite_markEnd : Definite markEnd := by
  have continues : ∀ {c c' : Cursor}, (∀ (ρ : Type) k, markEnd ρ c k = gap1 ρ c' k) → c'.rest.length ≤ c.rest.length →
      markEnd.Refuses c ∨ ∃ c'', markEnd.Reads c () c'' ∧ c''.rest.length < c.rest.length := by
    intro c c' same shorter
    rcases Definite.gap1 c' with refused | ⟨c'', reads, less⟩
    · exact .inl fun ρ k => (same ρ k).trans (refused ρ k)
    · exact .inr ⟨c'', fun ρ k => (same ρ k).trans (reads ρ k), Nat.lt_of_lt_of_le less shorter⟩
  rintro ⟨b, t⟩
  by_cases argument : t.head? = some '('
  · obtain ⟨t, rfl⟩ := List.head?_eq_some_iff.1 argument
    by_cases closed : ')' ∈ t
    · obtain ⟨u, rest, rfl, free⟩ := List.eq_append_cons_of_mem closed
      exact continues (fun ρ k => markEnd_argument free) (by simp; omega)
    · exact .inl (markEnd_unclosed closed)
  · exact continues (fun ρ k => markEnd_other fun x mem same => argument (by rw [← same]; exact mem)) (Nat.le_refl _)

theorem definite_methodMark : Definite methodMark := .bind (.sign '@') (.bind (.run1 Text.isWord) definite_markEnd)

theorem methodMark_word (filled : w ≠ []) (word : ∀ x ∈ w, Text.isWord x = true)
    (stop : ∀ x ∈ t.head?, Text.isWord x = false) :
    ∃ b', ∀ (ρ : Type) k, methodMark ρ ⟨b, '@' :: (w ++ t)⟩ k = markEnd ρ ⟨b', t⟩ k := by
  have sign : (sign '@').Reads ⟨b, '@' :: (w ++ t)⟩ () ⟨some '@', w ++ t⟩ := .sign
  have name : (skip (run1 Text.isWord)).Reads ⟨some '@', w ++ t⟩ () _ := .skip (.run1_append filled word stop)
  refine ⟨w.getLast? <|> some '@', fun ρ k => ?_⟩
  rw [methodMark_eq, bind_apply, sign ρ, bind_apply, name ρ]

theorem unmarkedHead_refuses {x : Char} (sign : isTypeChar x = false) (angle : x ≠ '<') :
    unmarkedHead.Refuses ⟨b, x :: t⟩ := by
  have noVisibility : (oneOf visibilityWords).Refuses ⟨b, x :: t⟩ := .oneOf_class (by decide) visibilityWords_letters sign
  have noModifier : (oneOf methodModifiers).Refuses ⟨b, x :: t⟩ := .oneOf_class (by decide) methodModifiers_letters sign
  apply Refuses.after (.optional_none noVisibility.bind)
  apply Refuses.after (.repeated_none noModifier.skip.bind)
  apply Refuses.after (.skip (.optional_none (.bind (.sign angle))))
  exact .bind (.bind (.bind (.char sign)))

theorem methodHead_unmarked (refused : methodMark.Refuses (.start ('@' :: t))) : methodHead.atStart ('@' :: t) = none := by
  apply Refuses.atStart
  rw [methodHead_eq]
  apply Refuses.after (.gap_none (by decide))
  apply Refuses.after (.repeated_none refused)
  exact unmarkedHead_refuses (by decide) (by decide)

theorem gap_start {g v : List Char} (blank : ∀ x ∈ g, Text.isBlank x = true) (stop : ∀ x ∈ v.head?, Text.isBlank x = false) :
    gap.Reads (.start (g ++ v)) () ⟨g.getLast?, v⟩ := by
  have read : gap.Reads (.start (g ++ v)) () ⟨g.getLast? <|> none, v⟩ := .gap blank stop
  have before : (g.getLast? <|> none) = g.getLast? := by cases g.getLast? <;> rfl
  rwa [before] at read

/-- Behind an annotation that is read the head goes on as if it stood alone. -/
theorem methodHead_marked {g v : List Char} {y : Char} (last : g.getLast? = some y)
    (blank : ∀ x ∈ g, Text.isBlank x = true) (stop : ∀ x ∈ v.head?, Text.isBlank x = false)
    (shorter : v.length < ('@' :: t).length) (reads : methodMark.Reads (.start ('@' :: t)) () ⟨some y, v⟩) :
    methodHead.atStart ('@' :: t) = methodHead.atStart (g ++ v) := by
  have gapHere : gap.Reads (.start ('@' :: t)) () (.start ('@' :: t)) := .gap_none (by decide)
  have gapThere := gap_start blank stop
  rw [last] at gapThere
  have noHead : unmarkedHead.Refuses (.start ('@' :: t)) := unmarkedHead_refuses (by decide) (by decide)
  -- in front of the annotation no head starts, so the reading does not stop there
  have same : methodHead.first (.start ('@' :: t)) = methodHead.first (.start (g ++ v)) := by
    rw [methodHead_eq, gapHere.first_bind, gapThere.first_bind, first, first, bind_apply, bind_apply,
      definite_methodMark.repeated_piece reads shorter, noHead]
    cases repeated methodMark _ _ _ <;> rfl
  rw [atStart, atStart, same]

theorem methodHead_argument (filled : w ≠ []) (word : ∀ x ∈ w, Text.isWord x = true) (free : ')' ∉ u) :
    methodHead.atStart ('@' :: (w ++ '(' :: (u ++ ')' :: rest))) =
      if rest.head?.any Text.isBlank then methodHead.atStart rest else none := by
  obtain ⟨b', named⟩ := methodMark_word (b := none) (t := '(' :: (u ++ ')' :: rest)) filled word
    (by rintro _ ⟨⟩; decide)
  have mark : ∀ (ρ : Type) k, methodMark ρ (.start ('@' :: (w ++ '(' :: (u ++ ')' :: rest)))) k =
      gap1 ρ ⟨some ')', rest⟩ k := fun ρ k => (named ρ k).trans (markEnd_argument free)
  cases behind : rest.head?.any Text.isBlank with
  | false =>
    have refused : gap1.Refuses ⟨some ')', rest⟩ := gap1_refuses fun x mem => by simpa [Option.mem_def.1 mem] using behind
    exact methodHead_unmarked fun ρ k => (mark ρ k).trans (refused ρ k)
  | true =>
    obtain ⟨x, first, blank⟩ := (Option.any_eq_true _ _).1 behind
    obtain ⟨t, rfl⟩ := List.head?_eq_some_iff.1 first
    have parts : x :: t = (x :: t.takeWhile Text.isBlank) ++ t.dropWhile Text.isBlank := by simp
    have blanks : ∀ y ∈ x :: t.takeWhile Text.isBlank, Text.isBlank y = true :=
      List.forall_mem_cons.2 ⟨blank, fun y mem => List.all_eq_true.1 List.all_takeWhile y mem⟩
    have stop : ∀ y ∈ (t.dropWhile Text.isBlank).head?, Text.isBlank y = false := Text.head_trimLeft
    obtain ⟨y, last⟩ : ∃ y, (x :: t.takeWhile Text.isBlank).getLast? = some y := ⟨_, List.getLast?_eq_some_getLast (by simp)⟩
    have read := Reads.gap1 (b := some ')') (List.cons_ne_nil x _) blanks stop
    rw [last, ← parts] at read
    have shorter : (t.dropWhile Text.isBlank).length ≤ t.length := (List.dropWhile_suffix Text.isBlank).length_le
    have reads := fun ρ k => (mark ρ k).trans (read ρ k)
    rw [methodHead_marked last blanks stop (by simp; omega) reads, ← parts]
    rfl

theorem methodHead_gapped {g : List Char} (filled : w ≠ []) (word : ∀ x ∈ w, Text.isWord x = true) (gapped : g ≠ [])
    (blank : ∀ x ∈ g, Text.isBlank x = true) : methodHead.atStart ('@' :: (w ++ (g ++ '(' :: t))) = none := by
  obtain ⟨y, last⟩ : ∃ y, g.getLast? = some y := ⟨_, List.getLast?_eq_some_getLast gapped⟩
  have visible : ∀ x ∈ ('(' :: t).head?, Text.isBlank x = false := by
    rintro _ ⟨⟩
    decide
  have head : ∀ x ∈ (g ++ '(' :: t).head?, Text.isBlank x = true := by
    obtain ⟨z, v, rfl⟩ := List.exists_cons_of_ne_nil gapped
    rintro _ ⟨⟩
    exact blank z (by simp)
  obtain ⟨b', named⟩ := methodMark_word (b := none) filled word fun x mem => Text.isWord_of_isBlank (head x mem)
  have read := Reads.gap1 (b := b') gapped blank visible
  rw [last] at read
  have reads : methodMark.Reads (.start ('@' :: (w ++ (g ++ '(' :: t)))) () ⟨some y, '(' :: t⟩ := fun ρ k =>
    (named ρ k).trans ((markEnd_other fun x mem => Text.ne_of_class (head x mem) (by decide)).trans (read ρ k))
  have noMark : methodMark.Refuses ⟨some y, '(' :: t⟩ := .bind (.sign (by decide))
  rw [methodHead_marked last blank visible (by simp; omega) reads]
  have gapRead := gap_start blank visible
  rw [last] at gapRead
  apply Refuses.atStart
  rw [methodHead_eq]
  apply Refuses.after gapRead
  apply Refuses.after (.repeated_none noMark)
  exact unmarkedHead_refuses (by decide) (by decide)

/-- No annotation is passed whose name goes on behind its first word. -/
theorem methodHead_broken (word : ∀ x ∈ w, Text.isWord x = true)
    (stop : ∀ x ∈ t.head?, Text.isWord x = false ∧ Text.isBlank x = false ∧ x ≠ '(') :
    methodHead.atStart ('@' :: (w ++ t)) = none := by
  by_cases filled : w = []
  · subst filled
    have noWord : (run1 Text.isWord).Refuses ⟨some '@', t⟩ := by
      cases t with
      | nil => exact .bind .char_nil
      | cons x t => exact .bind (.char (stop x rfl).1)
    exact methodHead_unmarked (.after .sign (.bind noWord.skip))
  · obtain ⟨b', named⟩ := methodMark_word (b := none) filled word fun x mem => (stop x mem).1
    have refused : gap1.Refuses ⟨b', t⟩ := gap1_refuses fun x mem => (stop x mem).2.1
    exact methodHead_unmarked fun ρ k =>
      (named ρ k).trans ((markEnd_other fun x mem => (stop x mem).2.2).trans (refused ρ k))

end Drift.Source.Java
