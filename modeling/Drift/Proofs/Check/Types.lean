import Drift.Proofs.Check.Qualifiers
import Drift.Proofs.Text.Joining
import Mathlib.Data.List.TakeWhile

namespace Drift

variable {b : Option Char} {c : Char} {t u : List Char}

theorem isQualifying_last : isQualifying b c [] = false := by
  cases word : Text.isWord c with
  | true => exact isQualifying_word word
  | false => simp [isQualifying_other word, dotted]

/-- Where characters are dropped, a word character stands behind them. -/
theorem head_keptFrom_of_isQualifying (h : isQualifying b c t = true) : (keptFrom (some c) t).head?.any Text.isWord = true := by
  induction t generalizing b c with
  | nil =>
    rw [isQualifying_last] at h
    cases h
  | cons d t ih =>
    cases test : isQualifying (some c) d t with
    | true =>
      rw [keptFrom_dropped test]
      exact ih test
    | false =>
      rw [keptFrom_kept test]
      cases word : Text.isWord d with
      | true => exact word
      | false =>
        rw [isQualifying_other word] at test
        cases before : Text.isWord c with
        | true =>
          rw [isQualifying_word before, List.dropWhile_cons_of_neg (by simp [word])] at h
          rw [h, Option.any_some, before] at test
          cases test
        | false =>
          rw [isQualifying_other before, Bool.and_eq_true, dotted, Bool.and_eq_true] at h
          exact h.2.2

theorem head_keptFrom (visible : ∀ x ∈ t.head?, Text.isBlank x = false) (b : Option Char) :
    ∀ x ∈ (keptFrom b t).head?, Text.isBlank x = false := by
  cases t with
  | nil => exact visible
  | cons c t =>
    cases test : isQualifying b c t with
    | true =>
      intro x head
      have word := head_keptFrom_of_isQualifying test
      rw [keptFrom_dropped test] at head
      rw [Option.mem_def.1 head] at word
      exact Text.isBlank_of_isWord word
    | false =>
      rw [keptFrom_kept test]
      exact visible

theorem getLast_keptFrom (b : Option Char) (t : List Char) : (keptFrom b t).getLast? = t.getLast? := by
  induction t generalizing b with
  | nil => rfl
  | cons c t ih =>
    cases t with
    | nil => rw [keptFrom_kept isQualifying_last, keptFrom]
    | cons d t =>
      have rest := ih (some c)
      cases test : isQualifying b c (d :: t) with
      | true => rw [keptFrom_dropped test, rest, List.getLast?_cons_cons]
      | false => rw [keptFrom_kept test, List.getLast?_cons, rest, List.getLast?_cons_cons, List.getLast?_cons, Option.getD_some]

/-- Behind a word character that is kept a dot is kept only if no word character stands behind it. -/
theorem not_dot_word {x y : Char} (word : Text.isWord x = true) (kept : isQualifying b x t = false) (other : Text.isWord y = true) :
    ¬ ['.', y] <+: keptFrom (some x) t := by
  rw [isQualifying_word word] at kept
  intro starts
  cases t with
  | nil => cases List.prefix_nil.1 starts
  | cons d t =>
    have here : isQualifying (some x) d t = false := by
      cases run : Text.isWord d with
      | true => rwa [isQualifying_word run, ← List.dropWhile_cons_of_pos (p := Text.isWord) run]
      | false =>
        rw [List.dropWhile_cons_of_neg (by simp [run])] at kept
        rw [isQualifying_other run, kept, Bool.and_false]
    rw [keptFrom_kept here, List.cons_prefix_cons] at starts
    obtain ⟨rfl, behind⟩ := starts
    have none : t.head?.any Text.isWord = false := by
      rw [isQualifying_other (by decide), Option.any_some, word, Bool.true_and] at here
      exact here
    cases t with
    | nil => cases List.prefix_nil.1 behind
    | cons e t =>
      have next : Text.isWord e = false := none
      have plain : isQualifying (some '.') e t = false := by
        rw [isQualifying_other next]
        rfl
      rw [keptFrom_kept plain, List.cons_prefix_cons] at behind
      rw [← behind.1, other] at next
      cases next

theorem keptFrom_no_qualifier {x y : Char} (word : Text.isWord x = true) (other : Text.isWord y = true) (b : Option Char)
    (t : List Char) : ¬ [x, '.', y] <:+: keptFrom b t := by
  induction t generalizing b with
  | nil => exact fun inside => absurd (List.infix_nil.1 inside) (List.cons_ne_nil _ _)
  | cons c t ih =>
    cases test : isQualifying b c t with
    | true =>
      rw [keptFrom_dropped test]
      exact ih _
    | false =>
      rw [keptFrom_kept test, List.infix_cons_iff, List.cons_prefix_cons, not_or]
      refine ⟨?_, ih _⟩
      rintro ⟨rfl, starts⟩
      exact not_dot_word word test other starts

theorem Qualifier.occurs (q : Qualifier t) : ∃ x y, Text.isWord x = true ∧ Text.isWord y = true ∧ [x, '.', y] <:+: t := by
  obtain ⟨front, word, behind, rfl, -, dots⟩ := q
  obtain ⟨r, rfl, next⟩ := exists_of_dotted dots
  obtain ⟨y, head, other⟩ := (Option.any_eq_true _ _).1 next
  obtain ⟨r, rfl⟩ := List.head?_eq_some_iff.1 head
  refine ⟨word.text.getLast word.nonempty, y, word.fits _ (List.getLast_mem _), other, front ++ word.text.dropLast, r, ?_⟩
  have parts := List.dropLast_concat_getLast word.nonempty
  calc front ++ word.text.dropLast ++ [word.text.getLast word.nonempty, '.', y] ++ r
    _ = front ++ ((word.text.dropLast ++ [word.text.getLast word.nonempty]) ++ '.' :: y :: r) := by simp
    _ = front ++ (word.text ++ '.' :: y :: r) := by rw [parts]

theorem plainType_eq_keptFrom (t : List Char) : plainType t = keptFrom none (Text.trim t) := by
  rw [plainType_eq, unqualified_eq]

theorem plainType_no_qualifier {x y : Char} (word : Text.isWord x = true) (other : Text.isWord y = true) (t : List Char) :
    ¬ [x, '.', y] <:+: plainType t := by
  rw [plainType_eq_keptFrom]
  exact keptFrom_no_qualifier word other none _

theorem plainType_idempotent (t : List Char) : plainType (plainType t) = plainType t := by
  have trimmed : Text.trim (plainType t) = plainType t := by
    rw [plainType_eq_keptFrom]
    refine Text.trim_eq_self (head_keptFrom Text.head_trim none) fun x last => ?_
    rw [getLast_keptFrom] at last
    exact Text.last_trimRight x last
  rw [plainType_eq (plainType t), trimmed]
  refine unqualified_eq_self fun q => ?_
  obtain ⟨x, y, word, other, inside⟩ := q.occurs
  exact plainType_no_qualifier word other t inside

theorem sameType_iff {a b : String} : sameType a b = true ↔ typeKey a = typeKey b := beq_iff_eq

theorem sameType_equivalence : Equivalence fun a b => sameType a b = true where
  refl := sameType_refl
  symm same := sameType_iff.2 (sameType_iff.1 same).symm
  trans left right := sameType_iff.2 ((sameType_iff.1 left).trans (sameType_iff.1 right))

theorem keptFrom_word (next : t.head?.any Text.isWord = true) (b b' : Option Char) : keptFrom b t = keptFrom b' t := by
  cases t with
  | nil => cases next
  | cons c t =>
    have word : Text.isWord c = true := next
    rw [keptFrom, keptFrom, isQualifying_word word, isQualifying_word word]

section Behind

variable {r r' : List Char} (next : r.head?.any Text.isWord = true) (next' : r'.head?.any Text.isWord = true)

include next next'

theorem dotted_append (filled : u ≠ []) : dotted (u ++ r) = dotted (u ++ r') := by
  obtain ⟨c, u, rfl⟩ := List.exists_cons_of_ne_nil filled
  cases u with
  | nil => simp [dotted, next, next']
  | cons d u => rfl

theorem isQualifying_append (apart : ∀ x ∈ (c :: u).getLast?, Text.isWord x = false) :
    isQualifying b c (u ++ r) = isQualifying b c (u ++ r') := by
  cases word : Text.isWord c with
  | true =>
    have filled : u.dropWhile Text.isWord ≠ [] := by
      intro gone
      have all : ∀ x ∈ c :: u, Text.isWord x = true := List.forall_mem_cons.2 ⟨word, List.dropWhile_eq_nil_iff.1 gone⟩
      have last := List.getLast?_eq_some_getLast (List.cons_ne_nil c u)
      have stop := apart _ last
      rw [all _ (List.getLast_mem _)] at stop
      cases stop
    rw [isQualifying_word word, isQualifying_word word, List.dropWhile_append, List.dropWhile_append]
    simp only [List.isEmpty_iff, filled, ↓reduceIte]
    exact dotted_append next next' filled
  | false =>
    rw [isQualifying_other word, isQualifying_other word]
    exact congrArg _ (dotted_append next next' (List.cons_ne_nil c u))

/-- What is kept of a text does not depend on which word stands behind it, unless the word goes on. -/
theorem keptFrom_append (same : ∀ b, keptFrom b r = keptFrom b r') (apart : ∀ x ∈ u.getLast?, Text.isWord x = false)
    (b : Option Char) : keptFrom b (u ++ r) = keptFrom b (u ++ r') := by
  induction u generalizing b with
  | nil => exact same b
  | cons c u ih =>
    have rest : ∀ x ∈ u.getLast?, Text.isWord x = false := fun x last => apart x (by
      rw [List.getLast?_cons, Option.mem_def.1 last]
      rfl)
    rw [List.cons_append, List.cons_append, keptFrom, keptFrom, isQualifying_append next next' apart, ih rest]

end Behind

theorem plainType_inserted (apart : ∀ c ∈ u.getLast?, Text.isWord c = false) (q w : Text.Run Text.isWord) (v : List Char) :
    plainType (u ++ (q.text ++ '.' :: (w.text ++ v))) = plainType (u ++ (w.text ++ v)) := by
  obtain ⟨d, w', shape, next, -⟩ := w.exists_head
  obtain ⟨c, q', front, first, -⟩ := q.exists_head
  have word : ∀ r : List Char, (d :: r).head?.any Text.isWord = true := fun _ => next
  have visible : Text.isBlank d = false := Text.isBlank_of_isWord next
  have trimmed := Text.trim_append_visible visible u (w' ++ v)
  have trimmed' : Text.trim (u ++ (q.text ++ '.' :: d :: (w' ++ v))) =
      Text.trimLeftWhile Text.isBlank u ++ (q.text ++ '.' :: d :: Text.trimRightWhile Text.isBlank (w' ++ v)) := by
    have inner := Text.trimRightWhile_append_cons visible [] (w' ++ v)
    rw [List.nil_append, List.nil_append] at inner
    rw [front, List.cons_append, Text.trim_append_visible (Text.isBlank_of_isWord first), Text.trimRightWhile_append_cons (by decide), inner]
    rfl
  rw [plainType_eq_keptFrom, plainType_eq_keptFrom, shape, List.cons_append, trimmed, trimmed']
  have head : (q.text ++ '.' :: d :: Text.trimRightWhile Text.isBlank (w' ++ v)).head?.any Text.isWord = true := by
    rw [front]
    exact first
  refine keptFrom_append head (word _) (fun b => ?_) (fun x last => apart x (Text.getLast_trimLeft last)) none
  rw [keptFrom_qualifier q (word _)]
  exact keptFrom_word (word _) _ _

/-- A type is compared without its qualifiers: they all go, and they only, and nothing that is left makes up a new one.
So a qualifier in front of a word makes no difference. -/
theorem plainType_drops_qualifiers (t u v : List Char) (q w : Text.Run Text.isWord) (b : String)
    (apart : ∀ c ∈ u.getLast?, Text.isWord c = false) :
    plainType t = unqualified (Text.trim t) ∧
      (∀ x y, Text.isWord x = true → Text.isWord y = true → ¬ [x, '.', y] <:+: plainType t) ∧
      plainType (plainType t) = plainType t ∧
      (Equivalence fun a b => sameType a b = true) ∧
      sameType (String.ofList (u ++ (q.text ++ '.' :: (w.text ++ v)))) b = sameType (String.ofList (u ++ (w.text ++ v))) b := by
  refine ⟨plainType_eq t, fun x y word other => plainType_no_qualifier word other t, plainType_idempotent t, sameType_equivalence, ?_⟩
  have key : typeKey (String.ofList (u ++ (q.text ++ '.' :: (w.text ++ v)))) = typeKey (String.ofList (u ++ (w.text ++ v))) := by
    rw [typeKey, typeKey, String.toList_ofList, String.toList_ofList, plainType_inserted apart q w v]
  rw [sameType, sameType, key]

theorem sameType_package : sameType "[]pkg.Type" "[]Type" = true := by
  have inserted := (plainType_drops_qualifiers [] "[]".toList [] (.of "pkg".toList (by decide)) (.of "Type".toList (by decide))
    "[]Type" (by rintro _ ⟨⟩; decide)).2.2.2.2
  exact inserted.trans (sameType_refl "[]Type")

end Drift
