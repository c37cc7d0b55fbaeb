import Drift.Check.Signatures
import Drift.Proofs.Recognizer.Allowed
import Drift.Proofs.Recognizer.Repeated
import Drift.Proofs.Recognizer.Replace
import Drift.Proofs.Text.Characters
import Mathlib.Data.List.Induction

namespace Drift

open Recognizer

def dotted : List Char → Bool
  | c :: t => c == '.' && t.head?.any Text.isWord
  | [] => false

structure Qualifier (t : List Char) where
  front : List Char
  word : Text.Run Text.isWord
  behind : List Char
  whole : t = front ++ (word.text ++ behind)
  apart : ∀ c ∈ front.getLast?, Text.isWord c = false
  dotted : dotted behind = true

def Qualifier.Covers {t : List Char} (q : Qualifier t) (i : Nat) : Prop :=
  q.front.length ≤ i ∧ i ≤ q.front.length + q.word.text.length

def InQualifier (t : List Char) (i : Nat) : Prop := ∃ q : Qualifier t, q.Covers i

theorem exists_of_dotted {t : List Char} (h : dotted t = true) : ∃ u, t = '.' :: u ∧ u.head?.any Text.isWord = true := by
  cases t with
  | nil => cases h
  | cons c t =>
    rw [dotted, Bool.and_eq_true, beq_iff_eq] at h
    obtain ⟨rfl, next⟩ := h
    exact ⟨t, rfl, next⟩

theorem head_of_dotted {t : List Char} (h : dotted t = true) : ∀ c ∈ t.head?, Text.isWord c = false := by
  obtain ⟨u, rfl, -⟩ := exists_of_dotted h
  rintro c ⟨⟩
  decide

def isQualifying (b : Option Char) (c : Char) (t : List Char) : Bool :=
  if Text.isWord c then dotted (t.dropWhile Text.isWord) else b.any Text.isWord && dotted (c :: t)

theorem isQualifying_word {b : Option Char} {c : Char} {t : List Char} (word : Text.isWord c = true) :
    isQualifying b c t = dotted (t.dropWhile Text.isWord) := if_pos word

theorem isQualifying_other {b : Option Char} {c : Char} {t : List Char} (other : Text.isWord c = false) :
    isQualifying b c t = (b.any Text.isWord && dotted (c :: t)) := by
  rw [isQualifying, other]
  rfl

theorem isQualifying_run {b : Option Char} {c : Char} {w t : List Char} (word : ∀ x ∈ c :: w, Text.isWord x = true)
    (stop : ∀ x ∈ t.head?, Text.isWord x = false) : isQualifying b c (w ++ t) = dotted t := by
  obtain ⟨here, rest⟩ := List.forall_mem_cons.1 word
  rw [isQualifying_word here, List.dropWhile_append_of_pos rest, Text.dropWhile_of_head stop]

/-- The longest run at the end of a text, and what stands before it. -/
theorem exists_last_run (p : Char → Bool) (u : List Char) :
    ∃ front run, u = front ++ run ∧ (∀ c ∈ run, p c = true) ∧ ∀ c ∈ front.getLast?, p c = false := by
  induction u using List.reverseRecOn with
  | nil => exact ⟨[], [], rfl, by simp, by simp⟩
  | append_singleton u c ih =>
    cases fits : p c with
    | false => exact ⟨u ++ [c], [], by simp, by simp, by simpa using fits⟩
    | true =>
      obtain ⟨front, run, rfl, all, stop⟩ := ih
      exact ⟨front, run ++ [c], by simp, by simpa [or_imp, forall_and] using ⟨all, fits⟩, stop⟩

/-- A place lies in a qualifier exactly if what stands around it says so. -/
theorem inQualifier_iff {u t : List Char} {c : Char} :
    InQualifier (u ++ c :: t) u.length ↔ isQualifying u.getLast? c t = true := by
  constructor
  · rintro ⟨⟨front, q, behind, whole, apart, dots⟩, low, high⟩
    obtain ⟨w, rfl⟩ : front <+: u := List.prefix_of_prefix_length_le ⟨_, whole.symm⟩ (List.prefix_append u _) low
    have parts : w ++ c :: t = q.text ++ behind := by simpa using whole
    obtain ⟨v, inside⟩ : w <+: q.text := by
      refine List.prefix_of_prefix_length_le ⟨_, parts⟩ (List.prefix_append q.text _) ?_
      simp only [List.length_append] at high
      omega
    have next : c :: t = v ++ behind := by simpa [← inside] using parts
    -- the place is the dot's if the whole word stands before it
    cases v with
    | nil =>
      obtain rfl : c :: t = behind := next
      have last : (front ++ w).getLast?.any Text.isWord = true := by
        obtain rfl : w = q.text := by simpa using inside
        obtain ⟨x, last, word⟩ := q.exists_last
        rw [List.getLast?_append, last]
        exact word
      rw [isQualifying_other (head_of_dotted dots c rfl), last, dots]
      rfl
    | cons d v =>
      obtain ⟨rfl, rfl⟩ : c = d ∧ t = v ++ behind := List.cons_eq_cons.1 next
      have word : ∀ x ∈ c :: v, Text.isWord x = true := fun x mem => q.fits x (by rw [← inside]; simp [mem])
      rw [isQualifying_run word (head_of_dotted dots), dots]
  · intro h
    obtain ⟨front, run, rfl, all, stop⟩ := exists_last_run Text.isWord u
    cases word : Text.isWord c with
    | true =>
      rw [isQualifying_word word] at h
      have fits : ∀ x ∈ run ++ c :: t.takeWhile Text.isWord, Text.isWord x = true :=
        List.forall_mem_append.2 ⟨all, List.forall_mem_cons.2 ⟨word, fun x mem => List.all_eq_true.1 List.all_takeWhile x mem⟩⟩
      exact ⟨⟨front, ⟨_, by simp, fits⟩, t.dropWhile Text.isWord, by simp, stop, h⟩,
        by simp [Qualifier.Covers]⟩
    | false =>
      rw [isQualifying_other word, Bool.and_eq_true] at h
      obtain ⟨last, dots⟩ := h
      have filled : run ≠ [] := by
        rintro rfl
        obtain ⟨x, mem, word⟩ := (Option.any_eq_true _ _).1 last
        rw [List.append_nil] at mem
        rw [stop x mem] at word
        cases word
      exact ⟨⟨front, ⟨run, filled, all⟩, c :: t, by simp, stop, dots⟩, by simp [Qualifier.Covers]⟩

theorem InQualifier.lt_length {t : List Char} {i : Nat} (covered : InQualifier t i) : i < t.length := by
  obtain ⟨⟨front, q, behind, rfl, apart, dots⟩, low, high⟩ := covered
  obtain ⟨u, rfl, -⟩ := exists_of_dotted dots
  simp only [List.length_append, List.length_cons] at high ⊢
  omega

instance (t : List Char) (i : Nat) : Decidable (InQualifier t i) :=
  decidable_of_iff (∃ h : i < t.length, isQualifying (t.take i).getLast? t[i] (t.drop (i + 1)) = true) <| by
    have place : ∀ h : i < t.length, InQualifier t i ↔ isQualifying (t.take i).getLast? t[i] (t.drop (i + 1)) = true := by
      intro h
      have around := inQualifier_iff (u := t.take i) (c := t[i]) (t := t.drop (i + 1))
      rwa [List.getElem_cons_drop, List.take_append_drop, List.length_take_of_le (Nat.le_of_lt h)] at around
    exact ⟨fun ⟨h, test⟩ => (place h).2 test, fun covered => ⟨covered.lt_length, (place covered.lt_length).1 covered⟩⟩

def unqualified (t : List Char) : List Char := (t.zipIdx.filter fun (_, i) => ¬ InQualifier t i).map (·.1)

def keptFrom : Option Char → List Char → List Char
  | _, [] => []
  | b, c :: t => if isQualifying b c t then keptFrom (some c) t else c :: keptFrom (some c) t

theorem unqualified_eq (t : List Char) : unqualified t = keptFrom none t := by
  have onward : ∀ u r, (((r.zipIdx u.length).filter fun (_, i) => ¬ InQualifier (u ++ r) i).map (·.1)) = keptFrom u.getLast? r := by
    intro u r
    induction r generalizing u with
    | nil => rfl
    | cons c r ih =>
      have rest := ih (u ++ [c])
      have here := inQualifier_iff (u := u) (t := r) (c := c)
      rw [List.append_assoc, List.singleton_append, List.length_append, List.length_singleton, List.getLast?_concat] at rest
      rw [List.zipIdx_cons, keptFrom]
      cases test : isQualifying u.getLast? c r with
      | true => rwa [List.filter_cons_of_neg (by simpa [here] using test), if_pos rfl]
      | false =>
        rw [List.filter_cons_of_pos (by simpa [here] using test), List.map_cons, rest]
        rfl
  exact onward [] t

theorem unqualified_eq_self {t : List Char} (none : Qualifier t → False) : unqualified t = t := by
  have all : t.zipIdx.filter (fun (_, i) => ¬ InQualifier t i) = t.zipIdx :=
    List.filter_eq_self.2 fun _ _ => decide_eq_true fun ⟨q, _⟩ => none q
  rw [unqualified, all, List.zipIdx_map_fst]

theorem keptFrom_dropped {b : Option Char} {c : Char} {t : List Char} (h : isQualifying b c t = true) :
    keptFrom b (c :: t) = keptFrom (some c) t := if_pos h

theorem keptFrom_kept {b : Option Char} {c : Char} {t : List Char} (h : isQualifying b c t = false) :
    keptFrom b (c :: t) = c :: keptFrom (some c) t := by
  rw [keptFrom, h]
  rfl

theorem keptFrom_plain {w t : List Char} (word : ∀ c ∈ w, Text.isWord c = true)
    (stop : ∀ c ∈ t.head?, Text.isWord c = false) (dots : dotted t = false) (b : Option Char) :
    keptFrom b (w ++ t) = w ++ keptFrom (w.getLast? <|> b) t := by
  induction w generalizing b with
  | nil => rfl
  | cons c w ih =>
    have test : isQualifying b c (w ++ t) = false := (isQualifying_run word stop).trans dots
    rw [List.cons_append, keptFrom_kept test, ih (List.forall_mem_cons.1 word).2, passed_cons]
    rfl

theorem keptFrom_qualifier (q : Text.Run Text.isWord) {t : List Char} (next : t.head?.any Text.isWord = true) (b : Option Char) :
    keptFrom b (q.text ++ '.' :: t) = keptFrom (some '.') t := by
  have dots : dotted ('.' :: t) = true := next
  have gone : ∀ w b, (∀ c ∈ w, Text.isWord c = true) → keptFrom b (w ++ '.' :: t) = keptFrom (w.getLast? <|> b) ('.' :: t) := by
    intro w
    induction w with
    | nil => exact fun b _ => rfl
    | cons c w ih =>
      intro b word
      have test : isQualifying b c (w ++ '.' :: t) = true := (isQualifying_run word (head_of_dotted dots)).trans dots
      rw [List.cons_append, keptFrom_dropped test, ih _ (List.forall_mem_cons.1 word).2, passed_cons]
  have test : isQualifying (q.text.getLast? <|> b) '.' t = true := by
    obtain ⟨x, last, word⟩ := q.exists_last
    rw [isQualifying_other (by decide), dots, last, Bool.and_true]
    exact word
  rw [gone q.text b q.fits, keptFrom_dropped test]

def qualifier : Recognizer Unit := do
  let _ ← run1 Text.isWord
  sign '.'

instance : Forward qualifier := Forward.bind _ _

theorem qualifier_definite : Definite qualifier := Definite.bind (.run1 Text.isWord) (.sign '.')

theorem qualifier_reads (q : Text.Run Text.isWord) (b : Option Char) (t : List Char) :
    qualifier.Reads ⟨b, q.text ++ '.' :: t⟩ () ⟨some '.', t⟩ :=
  .bind (.run1_append q.nonempty q.fits (by rintro _ ⟨⟩; decide)) .sign

theorem qualifier_refuses {b : Option Char} {t : List Char} (other : ∀ c ∈ t.head?, Text.isWord c = false) :
    qualifier.Refuses ⟨b, t⟩ := by
  cases t with
  | nil => exact .bind (.bind .char_nil)
  | cons c t => exact .bind (.bind (.char (other c rfl)))

theorem wordEdge_refuses {c : Cursor} (even : c.before.any Text.isWord = c.rest.head?.any Text.isWord) :
    wordEdge.Refuses c := by
  intro ρ k
  rw [wordEdge, even, bne_self_eq_false]
  rfl

theorem qualifiers_refuse {b : Option Char} {c : Char} {t : List Char}
    (inner : Text.isWord c = true → b.any Text.isWord = true) : qualifiers.first ⟨b, c :: t⟩ = none := by
  by_cases even : b.any Text.isWord = Text.isWord c
  · exact (wordEdge_refuses even).bind.first
  · refine Refuses.first (.after (.wordEdge even) (.bind (qualifier_refuses ?_)))
    rintro _ ⟨⟩
    cases word : Text.isWord c with
    | false => rfl
    | true =>
      rw [word, inner word] at even
      exact absurd rfl even

theorem wordEdge_reads (q : Text.Run Text.isWord) {b : Option Char} (apart : b.any Text.isWord = false) (t : List Char) :
    wordEdge.Reads ⟨b, q.text ++ t⟩ () ⟨b, q.text ++ t⟩ := by
  obtain ⟨c, w, shape, here, -⟩ := q.exists_head
  exact .wordEdge (by simp [apart, shape, here])

theorem qualifiers_refuse_plain (q : Text.Run Text.isWord) {b : Option Char} {t : List Char} (apart : b.any Text.isWord = false)
    (stop : ∀ c ∈ t.head?, Text.isWord c = false) (dots : dotted t = false) :
    qualifiers.first ⟨b, q.text ++ t⟩ = none := by
  refine Refuses.first (.after (wordEdge_reads q apart t) ?_)
  have read := Reads.run1_append (b := b) q.nonempty q.fits stop
  cases t with
  | nil => exact .bind (.after read (.skip .char_nil))
  | cons c t =>
    by_cases dot : c = '.'
    · subst dot
      have next : t.head?.any Text.isWord = false := dots
      have none : ∀ x ∈ t.head?, Text.isWord x = false := by
        intro x head
        rw [Option.mem_def.1 head] at next
        exact next
      refine .after (qualifier_reads q b t) (.after (.repeated_none (qualifier_refuses none)) fun ρ k => ?_)
      rw [ahead, next]
      rfl
    · exact .bind (.after read (.sign dot))

/-- Behind one qualifier the reading goes on with the next, if there is any. -/
theorem qualifiers_first (q : Text.Run Text.isWord) {b : Option Char} {t : List Char} (apart : b.any Text.isWord = false)
    (next : t.head?.any Text.isWord = true) :
    qualifiers.first ⟨b, q.text ++ '.' :: t⟩ = (qualifiers.first ⟨some '.', t⟩ <|> some ((), ⟨some '.', t⟩)) := by
  have here : wordEdge.Reads ⟨some '.', t⟩ () ⟨some '.', t⟩ := .wordEdge fun even => by simp [next] at even; cases even
  have ends : (ahead Text.isWord).first ⟨some '.', t⟩ = some ((), ⟨some '.', t⟩) := by
    rw [first, ahead, next]
    rfl
  have onward : qualifiers.first ⟨b, q.text ++ '.' :: t⟩ = (do repeated qualifier; ahead Text.isWord).first ⟨some '.', t⟩ :=
    (wordEdge_reads q apart _).first_after (qualifier_reads q b t).first_bind
  have again : qualifiers.first ⟨some '.', t⟩ = (do qualifier; repeated qualifier; ahead Text.isWord).first ⟨some '.', t⟩ :=
    here.first_bind
  rw [onward, again]
  rcases qualifier_definite ⟨some '.', t⟩ with refused | ⟨c', reads, shorter⟩
  · rw [(Reads.repeated_none refused).first_bind, ends, refused.bind.first]
    rfl
  · rw [reads.first_bind]
    exact (qualifier_definite.repeated_piece reads shorter).trans (congrArg (_ <|> ·) ends)

theorem qualifiers_pass {b : Option Char} {t : List Char} {c' : Cursor} (reading : qualifiers.first ⟨b, t⟩ = some ((), c')) :
    ∃ y v, t = y :: (v ++ c'.rest) := by
  have yields := Yields.bind (Forward.yields (r := wordEdge)) fun _ =>
    Yields.bind (.bind (.run1 Text.isWord) fun _ => Forward.yields (r := sign '.')) fun _ =>
    Forward.yields (r := (do repeated qualifier; ahead Text.isWord))
  obtain ⟨-, c₁, ⟨front, first⟩, -, c₂, ⟨w, c₃, ⟨run, filled, -⟩, ⟨dot, second⟩⟩, ⟨rest, third⟩⟩ := yields.of_first reading
  change front ++ c₁.rest = t at first
  have passed : t = (front ++ (w ++ (dot ++ rest))) ++ c'.rest := by
    rw [← first, run, ← second, ← third]
    simp
  obtain ⟨y, v, shape⟩ := List.exists_cons_of_ne_nil (l := front ++ (w ++ (dot ++ rest))) (by simp [filled])
  exact ⟨y, v, by rw [passed, shape, List.cons_append]⟩

def withoutFound (b : Option Char) (t : List Char) : List Char := replaceFrom qualifiers (fun _ => []) b t

theorem withoutFound_qualifier (q : Text.Run Text.isWord) {b : Option Char} {t : List Char} (apart : b.any Text.isWord = false)
    (next : t.head?.any Text.isWord = true) : withoutFound b (q.text ++ '.' :: t) = withoutFound (some '.') t := by
  obtain ⟨x, w, shape⟩ := List.exists_cons_of_ne_nil q.nonempty
  have reading := qualifiers_first q apart next
  rw [shape, List.cons_append] at reading ⊢
  cases found : qualifiers.first ⟨some '.', t⟩ with
  | none =>
    rw [found] at reading
    have whole : w ++ '.' :: t = (w ++ ['.']) ++ t := by simp
    rw [whole] at reading ⊢
    rw [withoutFound, replaceFrom_reading reading, List.getLast?_concat]
    rfl
  | some more =>
    -- one reading takes the qualifier together with those that follow it
    obtain ⟨⟨⟩, b', t'⟩ := more
    rw [found] at reading
    obtain ⟨y, v, rfl⟩ := qualifiers_pass found
    have whole : w ++ '.' :: y :: (v ++ t') = (w ++ '.' :: y :: v) ++ t' := by simp
    rw [whole] at reading ⊢
    rw [withoutFound, withoutFound, replaceFrom_reading reading, replaceFrom_reading found]
    simp [List.getLast?_cons]

theorem withoutFound_other {b : Option Char} {c : Char} (inner : Text.isWord c = true → b.any Text.isWord = true) (t : List Char) :
    withoutFound b (c :: t) = c :: withoutFound (some c) t := replaceFrom_cons (qualifiers_refuse inner)

theorem withoutFound_plain (q : Text.Run Text.isWord) {b : Option Char} {t : List Char} (apart : b.any Text.isWord = false)
    (stop : ∀ c ∈ t.head?, Text.isWord c = false) (dots : dotted t = false) :
    withoutFound b (q.text ++ t) = q.text ++ withoutFound q.text.getLast? t := by
  have inside : ∀ w b, (∀ c ∈ w, Text.isWord c = true) → b.any Text.isWord = true →
      withoutFound b (w ++ t) = w ++ withoutFound (w.getLast? <|> b) t := by
    intro w
    induction w with
    | nil => exact fun b _ _ => rfl
    | cons c w ih =>
      intro b word after
      obtain ⟨here, rest⟩ := List.forall_mem_cons.1 word
      rw [List.cons_append, withoutFound_other fun _ => after, ih (some c) rest here, passed_cons]
      rfl
  obtain ⟨x, w, shape, here, rest⟩ := q.exists_head
  have none := qualifiers_refuse_plain q apart stop dots
  rw [shape, List.cons_append] at none ⊢
  rw [withoutFound, replaceFrom_cons none, ← withoutFound, inside w (some x) rest here]
  simp [List.getLast?_cons]

/-- What is found of qualifiers is all of them, from any place that parts no word and no qualifier. -/
theorem withoutFound_eq_keptFrom {b : Option Char} {t : List Char}
    (edge : b.any Text.isWord = true → (∀ c ∈ t.head?, Text.isWord c = false) ∧ dotted t = false) :
    withoutFound b t = keptFrom b t := by
  induction length : t.length using Nat.strongRecOn generalizing b t with
  | ind k ih =>
    cases t with
    | nil => exact replaceFrom_nil
    | cons c t =>
      cases word : Text.isWord c with
      | false =>
        have kept : isQualifying b c t = false := by
          rw [isQualifying_other word]
          cases after : b.any Text.isWord with
          | false => rfl
          | true => exact (edge after).2
        have other : ∀ after : Option.any Text.isWord (some c) = true, False := by simp [word]
        rw [withoutFound_other (by simp [word]), keptFrom_kept kept,
          ih t.length (by simp [← length]) (fun after => (other after).elim) rfl]
      | true =>
        have apart : b.any Text.isWord = false := by
          rw [Bool.eq_false_iff]
          intro after
          rw [(edge after).1 c rfl] at word
          cases word
        obtain ⟨q, r, shape, stop⟩ := Text.exists_run (p := Text.isWord) (t := c :: t) word
        have filled := List.length_pos_iff.2 q.nonempty
        rw [shape, List.length_append] at length
        rw [shape]
        cases dots : dotted r with
        | true =>
          obtain ⟨u, rfl, next⟩ := exists_of_dotted dots
          rw [withoutFound_qualifier q apart next, keptFrom_qualifier q next]
          exact ih _ (by rw [← length, List.length_cons]; omega) (fun after => absurd after (by decide)) rfl
        | false =>
          rw [withoutFound_plain q apart stop dots, keptFrom_plain q.fits stop dots,
            ih r.length (by omega) (fun _ => ⟨stop, dots⟩) rfl]
          obtain ⟨x, last, -⟩ := q.exists_last
          simp [last]

theorem plainType_eq (t : List Char) : plainType t = unqualified (Text.trim t) := by
  rw [unqualified_eq, ← withoutFound_eq_keptFrom (by simp)]
  rfl

end Drift
