import Drift.Proofs.Source.Go.Head
import Drift.Proofs.Source.Go.Results
import Drift.Proofs.Source.Parts

namespace Drift.Source.Go

open Recognizer

theorem groupNames_single (x : List Char × List Char) : (groupNames [x]).1 = [x] := by
  obtain ⟨name, type⟩ := x
  cases name <;> rfl

theorem length_groupNames (xs : List (List Char × List Char)) : (groupNames xs).1.length = xs.length := by
  induction xs with
  | nil => rfl
  | cons x xs ih =>
    rw [groupNames]
    dsimp only
    split
    · simp [ih]
    · split <;> simp [ih]

theorem eq_of_field_nameless {part type : List Char} (nameless : field part = ([], type)) : part = type := by
  rw [field] at nameless
  split at nameless
  · rename_i w rest _
    split at nameless
    · rename_i named
      rw [Bool.and_eq_true, isIdentifier_iff] at named
      obtain ⟨-, n, rfl⟩ := named
      simp [Identifier.text] at nameless
    · exact congrArg Prod.snd nameless
  · exact congrArg Prod.snd nameless

/-- A list of which one type is read holds nothing else but commas and blanks. -/
theorem count_of_fields {text type : List Char} (single : fields text = [([], type)]) :
    text.count '\x7b' = type.count '\x7b' := by
  have parts : splitParams plainBrackets text = [type] := by
    rw [fields] at single
    have one : (splitParams plainBrackets text).length = 1 := by
      rw [← List.length_map (f := field), ← length_groupNames, single]
      rfl
    obtain ⟨part, only⟩ := List.length_eq_one_iff.1 one
    rw [only, List.map_singleton, groupNames_single, List.cons.injEq] at single
    rw [only, eq_of_field_nameless single.1]
  have kept := count_splitParams (c := '\x7b') (by decide) (by decide) plainBrackets text
  rw [parts] at kept
  simpa using kept.symm

theorem count_of_readResults {t type : List Char} (single : readResults t = [result type []]) :
    t.count '\x7b' = type.count '\x7b' := by
  by_cases filled : t = []
  · subst filled
    cases single
  · by_cases enclosed : ∃ inside, t = '(' :: (inside ++ [')']) ∧ Passes 1 1 inside
    · obtain ⟨inside, rfl, passes⟩ := enclosed
      rw [readResults_enclosed passes, List.map_eq_singleton_iff] at single
      obtain ⟨⟨name, type'⟩, only, same⟩ := single
      simp only [result, Signature.Result.mk.injEq, String.ofList_inj] at same
      obtain ⟨rfl, rfl⟩ := same
      simp [← count_of_fields only]
    · rw [readResults_single filled fun inside shape passes => enclosed ⟨inside, shape, passes⟩] at single
      simp only [result, List.cons.injEq, Signature.Result.mk.injEq, String.ofList_inj, and_true] at single
      rw [single]

/-- A text reaches over another one: it starts with it and holds more opening braces. In front of nothing stands one
of them. -/
structure Overruns (t u : List Char) : Prop where
  starts : t <+: u
  more : t.count '\x7b' < u.count '\x7b'
  brace : t = [] → u.head? = some '\x7b'

/-- What is read in a text changes when the text reaches over its end. -/
theorem Overruns.readResults_ne {t u : List Char} (h : Overruns t u) : readResults u ≠ readResults t := by
  intro same
  by_cases empty : t = []
  · subst empty
    obtain ⟨v, rfl⟩ := List.head?_eq_some_iff.1 (h.brace rfl)
    rw [readResults_single (by simp) (by simp)] at same
    cases same
  · have filled : u ≠ [] := by
      rintro rfl
      exact empty (List.prefix_nil.1 h.starts)
    have fewer := h.more
    by_cases enclosed : ∃ inside, t = '(' :: (inside ++ [')']) ∧ Passes 1 1 inside
    · by_cases enclosed' : ∃ inside, u = '(' :: (inside ++ [')']) ∧ Passes 1 1 inside
      · -- the parenthesis that closes the first one ends both
        obtain ⟨inside, rfl, passes⟩ := enclosed
        obtain ⟨inside', rfl, passes'⟩ := enclosed'
        obtain ⟨v, whole⟩ := h.starts
        have rest : inside ++ ')' :: v = inside' ++ [')'] := by simpa using whole
        have place := passes.closingParen_eq v
        rw [rest, passes'.closingParen_eq, Option.some.injEq] at place
        have lengths := congrArg List.length rest
        obtain rfl : v = [] := by simpa [place] using lengths
        simp [← whole] at fewer
      · rw [readResults_single filled fun inside shape passes => enclosed' ⟨inside, shape, passes⟩] at same
        rw [count_of_readResults same.symm] at fewer
        exact Nat.lt_irrefl _ fewer
    · rw [readResults_single empty fun inside shape passes => enclosed ⟨inside, shape, passes⟩] at same
      rw [count_of_readResults same] at fewer
      exact Nat.lt_irrefl _ fewer

theorem overruns_open (t b : List Char) : Overruns (Text.trim t) (upTo t ++ '\x7b' :: b) := by
  have left : Text.trim t <+: upTo t := by
    rw [← trim_upTo, Text.trim, Text.trimWhile, Text.trimLeftWhile, Text.dropWhile_of_head (head_upTo t)]
    exact Text.trimRightWhile_prefix _ _
  refine ⟨left.trans (List.prefix_append _ _), ?_, fun empty => ?_⟩
  · have less := left.sublist.count_le '\x7b'
    simp
    omega
  · rw [upTo, if_pos empty]
    rfl

theorem getLast_body (t : List Char) {b : List Char} (filled : b ≠ []) :
    (upTo t ++ '\x7b' :: b).getLast? = b.getLast? := by
  simp [List.getLast?_append, List.getLast?_cons, List.getLast?_eq_some_getLast filled]

/-- A brace that the line ends with is taken for the one that opens the body. -/
theorem resultText_of_brace (t : List Char) {b : List Char}
    (brace : (Text.trimRightWhile Text.isBlank b).getLast? = some '\x7b') :
    Overruns (Text.trim t) (resultText (t ++ ' ' :: '\x7b' :: b)) := by
  have filled : Text.trimRightWhile Text.isBlank b ≠ [] := by
    intro empty
    rw [empty] at brace
    cases brace
  rw [resultText, trim_body, getLast_body t filled, if_pos brace, List.dropLast_append_of_ne_nil (by simp),
    List.dropLast_cons_of_ne_nil filled, Text.trim_append_cons (head_upTo t) (by decide)]
  exact overruns_open t _

/-- Behind no results the brace that opens the body is part of what is read. -/
theorem resultText_of_blank {t b : List Char} (blank : Text.trim t = []) (filled : Text.trimRightWhile Text.isBlank b ≠ [])
    (other : (Text.trimRightWhile Text.isBlank b).getLast? ≠ some '\x7b') :
    Overruns (Text.trim t) (resultText (t ++ ' ' :: '\x7b' :: b)) := by
  have none : upTo t = [] := by rw [upTo, if_pos blank]
  rw [resultText, trim_body, getLast_body t filled, if_neg other, none, List.nil_append]
  split
  · rename_i before after cut
    obtain ⟨shape, starts⟩ := Text.cutAtText_eq_some cut
    cases before with
    | nil =>
      obtain ⟨rest, whole⟩ := starts
      rw [← whole] at shape
      cases shape
    | cons c before =>
      obtain ⟨rfl, -⟩ := List.cons.inj shape
      have kept : Text.trim ([] ++ '\x7b' :: before) = [] ++ '\x7b' :: Text.trimRightWhile Text.isBlank before :=
        Text.trim_append_cons (by simp) (by decide) before
      rw [List.nil_append] at kept
      rw [kept, ← none]
      exact overruns_open t _
  · have reaches := overruns_open t (Text.trimRightWhile Text.isBlank b)
    rwa [none] at reaches

theorem cutAtText_open {t : List Char} (absent : ¬ " \x7b".toList <:+: t) (b : List Char) :
    Text.cutAtText? " \x7b".toList (t ++ ' ' :: '\x7b' :: b) = some (t, ' ' :: '\x7b' :: b) := by
  induction t with
  | nil => rfl
  | cons c t ih =>
    rw [List.infix_cons_iff, not_or] at absent
    have here : " \x7b".toList.isPrefixOf (c :: (t ++ ' ' :: '\x7b' :: b)) = false := by
      rw [Bool.eq_false_iff, Ne, List.isPrefixOf_iff_prefix]
      rintro ⟨rest, whole⟩
      cases t with
      | nil => simp at whole
      | cons d t =>
        obtain ⟨rfl, rest⟩ := List.cons.inj whole
        obtain ⟨rfl, -⟩ := List.cons.inj rest
        exact absent.1 ⟨t, rfl⟩
    rw [List.cons_append, Text.cutAtText?, here, ih absent.2]
    rfl

theorem infix_trim_iff {t : List Char} :
    " \x7b".toList <:+: Text.trim t ↔ " \x7b".toList <:+: Text.trimLeftWhile Text.isBlank t := by
  constructor
  · exact fun inside => inside.trans (Text.trimRightWhile_prefix _ _).isInfix
  · rintro ⟨u, v, whole⟩
    have brace : u ++ " \x7b".toList ++ v = (u ++ [' ']) ++ '\x7b' :: v := by simp
    rw [Text.trim, Text.trimWhile, ← whole, brace, Text.trimRightWhile_append_cons (by decide)]
    exact ⟨u, Text.trimRightWhile Text.isBlank v, by simp⟩

theorem resultText_of_inner {t b : List Char} (inner : " \x7b".toList <:+: Text.trim t)
    (filled : Text.trimRightWhile Text.isBlank b ≠ [])
    (other : (Text.trimRightWhile Text.isBlank b).getLast? ≠ some '\x7b') :
    Overruns (resultText (t ++ ' ' :: '\x7b' :: b)) (Text.trim t) := by
  have inside := infix_trim_iff.1 inner
  have results : Text.trim t ≠ [] := by
    intro empty
    rw [empty] at inner
    cases List.infix_nil.1 inner
  obtain ⟨⟨before, after⟩, cut⟩ : ∃ parts, Text.cutAtText? " \x7b".toList (Text.trimLeftWhile Text.isBlank t) = some parts := by
    rw [← Option.isSome_iff_exists, ← Option.ne_none_iff_isSome, Ne, Text.cutAtText_eq_none_iff, Decidable.not_not]
    exact inside
  have longer := Text.cutAtText_append cut (' ' :: '\x7b' :: Text.trimRightWhile Text.isBlank b)
  rw [resultText, trim_body, getLast_body t filled, if_neg other, upTo, if_neg results, List.append_assoc,
    List.singleton_append, longer]
  obtain ⟨shape, y, rfl⟩ := Text.cutAtText_eq_some cut
  have head : ∀ c ∈ (Text.trimLeftWhile Text.isBlank t).head?, Text.isBlank c = false := Text.head_trimLeft
  rw [shape] at head
  have first : before ≠ [] := by
    rintro rfl
    exact absurd (head ' ' rfl) (by decide)
  have front : Text.trimLeftWhile Text.isBlank before = before := by
    refine Text.dropWhile_of_head fun c mem => head c ?_
    rw [List.head?_append, Option.mem_def.1 mem]
    rfl
  have kept : upTo before = before ++ [' '] := by
    rw [upTo, front, if_neg]
    rwa [Text.trim_eq_nil_iff, front]
  have whole : Text.trim t = upTo before ++ '\x7b' :: Text.trimRightWhile Text.isBlank y := by
    have brace : before ++ (" \x7b".toList ++ y) = (before ++ [' ']) ++ '\x7b' :: y := by simp
    rw [kept, Text.trim, Text.trimWhile, shape, brace, Text.trimRightWhile_append_cons (by decide)]
  rw [whole]
  exact overruns_open before _

theorem resultText_of_plain {t b : List Char} (results : Text.trim t ≠ []) (plain : ¬ " \x7b".toList <:+: Text.trim t)
    (filled : Text.trimRightWhile Text.isBlank b ≠ [])
    (other : (Text.trimRightWhile Text.isBlank b).getLast? ≠ some '\x7b') :
    resultText (t ++ ' ' :: '\x7b' :: b) = Text.trim t := by
  rw [infix_trim_iff] at plain
  rw [resultText, trim_body, getLast_body t filled, if_neg other, upTo, if_neg results, List.append_assoc,
    List.singleton_append, cutAtText_open plain]
  exact Text.trim_trimLeft t

/-- The results are read without the body only if there is no body on the line, or if they are not none, have no blank
with a brace behind it among them, and no brace ends the line. -/
theorem results_body_iff {t b : List Char} :
    results (t ++ ' ' :: '\x7b' :: b) = results (t ++ " \x7b".toList) ↔
      Text.trim b = [] ∨
        (Text.trim t ≠ [] ∧ ¬ " \x7b".toList <:+: Text.trim t ∧ (Text.trim b).getLast? ≠ some '\x7b') := by
  rw [results_eq, results_eq, resultText_open, ← Text.trimRight_eq_nil_iff, Text.getLast_trim]
  by_cases empty : Text.trimRightWhile Text.isBlank b = []
  · have bare : resultText (t ++ ' ' :: '\x7b' :: b) = resultText (t ++ ' ' :: '\x7b' :: []) := by
      rw [resultText, resultText, trim_body, trim_body, empty]
      rfl
    simp only [empty, true_or, iff_true]
    exact congrArg readResults (bare.trans (resultText_open t))
  · by_cases brace : (Text.trimRightWhile Text.isBlank b).getLast? = some '\x7b'
    · simp only [empty, brace, ne_eq, not_true_eq_false, and_false, or_false, iff_false]
      exact (resultText_of_brace t brace).readResults_ne
    · by_cases blank : Text.trim t = []
      · simp only [empty, blank, ne_eq, not_true_eq_false, false_and, or_false, iff_false]
        have reaches := (resultText_of_blank blank empty brace).readResults_ne
        rwa [blank] at reaches
      · by_cases inner : " \x7b".toList <:+: Text.trim t
        · simp only [empty, inner, not_true_eq_false, false_and, and_false, or_false, iff_false]
          exact (resultText_of_inner inner empty brace).readResults_ne.symm
        · rw [resultText_of_plain blank inner empty brace]
          exact iff_of_true rfl (.inr ⟨blank, inner, brace⟩)

def resultsOf? (header : List Char) : Option (List Char) := do
  let (_, rest) ← functionHead.atStart (Text.trim header)
  let (_, after) ← enclosed? rest
  return Text.trim after

theorem exists_after {h front behind : List Char} (shape : upTo h ++ ['\x7b'] = front ++ ')' :: behind) :
    ∃ after, behind = after ++ " \x7b".toList ∧ upTo h = front ++ ')' :: (after ++ [' ']) := by
  -- both sides end with the brace, and what is left of the header ends with the blank in front of it
  have last : ∀ c ∈ (upTo h).getLast?, c = ' ' := by
    rw [upTo]
    split <;> simp
  rcases List.eq_nil_or_concat behind with rfl | ⟨u, c, rfl⟩
  · have closing := congrArg List.getLast? shape
    simp at closing
  · have ending : front ++ ')' :: u.concat c = (front ++ ')' :: u) ++ [c] := by simp
    rw [ending] at shape
    obtain ⟨header, brace⟩ := List.append_inj' shape rfl
    cases brace
    rw [header] at last ⊢
    rcases List.eq_nil_or_concat u with rfl | ⟨after, x, rfl⟩
    · cases last ')' (by simp)
    · obtain rfl := last x (by simp [List.getLast?_cons])
      exact ⟨after, by simp⟩

theorem resultsOf_eq {h inside after : List Char} {d : Head} (passes : Passes 1 1 inside)
    (shape : upTo h = d.text ++ '(' :: (inside ++ ')' :: (after ++ [' ']))) : resultsOf? h = some (Text.trim after) := by
  have front : ∀ t, ∀ c ∈ ((d.text ++ '(' :: inside) ++ t).head?, Text.isBlank c = false := by
    rintro t _ ⟨⟩
    decide
  have trimmed : Text.trim h =
      d.text ++ '(' :: (inside ++ ')' :: Text.trimRightWhile Text.isBlank (after ++ [' '])) := by
    have split : upTo h = (d.text ++ '(' :: inside) ++ ')' :: (after ++ [' ']) := by simp [shape]
    have head := front []
    rw [List.append_nil] at head
    rw [← trim_upTo, split, Text.trim_append_cons head (by decide)]
    simp
  have enclosed := enclosed_eq_some_iff.2
    ⟨Eq.refl (inside ++ ')' :: Text.trimRightWhile Text.isBlank (after ++ [' '])), passes⟩
  have behind : Text.trim (Text.trimRightWhile Text.isBlank (after ++ [' '])) = Text.trim after := by
    rw [Text.trim_trimRight, Text.trim_append_blank Text.isBlank_space]
  rw [resultsOf?, trimmed, functionHead_text]
  simp [enclosed, behind]

/-- With a body behind the brace of a declaration the same signature is read but for the results. They stay as they are
where the body is blank; elsewhere only if there are results, no blank with a brace behind it stands in them, and the body
does not end with another opening brace. -/
theorem signatures_body {file : String} {h b : List Char} {s : Signature}
    (header : ∀ c ∈ h, Text.isLineBreak c = false) (body : ∀ c ∈ b, Text.isLineBreak c = false) (untested : Untested b)
    (read : signatures file (h ++ " \x7b".toList) = [s]) :
    ∃ written s', resultsOf? h = some written ∧ signatures file (h ++ " \x7b".toList ++ b) = [s'] ∧
      s' = { s with results := s'.results } ∧
      (s' = s ↔ Text.trim b = [] ∨
        (written ≠ [] ∧ ¬ " \x7b".toList <:+: written ∧ (Text.trim b).getLast? ≠ some '\x7b')) := by
  have whole : ∀ c ∈ h ++ " \x7b".toList, Text.isLineBreak c = false :=
    List.forall_mem_append.2 ⟨header, forall_of_all (by decide)⟩
  have whole' : ∀ c ∈ h ++ " \x7b".toList ++ b, Text.isLineBreak c = false := List.forall_mem_append.2 ⟨whole, body⟩
  have trimmed : Text.trim (h ++ " \x7b".toList) = upTo h ++ ['\x7b'] := trim_body h []
  have trimmed' : Text.trim (h ++ " \x7b".toList ++ b) = upTo h ++ '\x7b' :: Text.trimRightWhile Text.isBlank b := by
    rw [← trim_body]
    simp
  rw [signatures_line file (by simp) whole, lineSignatures_eq_singleton_iff, trimmed] at read
  obtain ⟨fresh, d, inside, behind, shape, passes, rfl⟩ := read
  have split : ∀ t, d.text ++ '(' :: (inside ++ ')' :: t) = (d.text ++ '(' :: inside) ++ ')' :: t := by simp
  rw [split] at shape
  obtain ⟨after, rfl, front⟩ := exists_after shape
  rw [← split] at front
  let rest := after ++ ' ' :: '\x7b' :: Text.trimRightWhile Text.isBlank b
  refine ⟨Text.trim after, declared file 1 d.name.text inside rest, resultsOf_eq passes front, ?_, rfl, ?_⟩
  · rw [signatures_line file (by simp) whole', lineSignatures_eq_singleton_iff, trimmed']
    refine ⟨fun inner => ?_, d, inside, rest, by simp [front, rest], passes, rfl⟩
    -- the brace is not in the forbidden word, which would therefore stand on one side of it
    rcases Text.infix_append_cons (by decide) inner with inner | inner
    · exact fresh (inner.trans (List.prefix_append _ _).isInfix)
    · exact untested (inner.trans (Text.trimRightWhile_prefix _ b).isInfix)
  · have same := results_body_iff (t := after) (b := Text.trimRightWhile Text.isBlank b)
    rw [Text.trim_trimRight] at same
    rw [← same]
    simp [declared, rest]

theorem signatures_body_pair :
    (∀ c ∈ "func F() (int, error)".toList, Text.isLineBreak c = false) ∧
    (∀ c ∈ " return 1, nil \x7d".toList, Text.isLineBreak c = false) ∧ Untested " return 1, nil \x7d".toList ∧
    signatures "a.go" "func F() (int, error) \x7b".toList =
      [{ name := "F", results := [⟨"int", ""⟩, ⟨"error", ""⟩], file := "a.go", line := 1 }] ∧
    signatures "a.go" "func F() (int, error) \x7b return 1, nil \x7d".toList =
      [{ name := "F", results := [⟨"int", ""⟩, ⟨"error", ""⟩], file := "a.go", line := 1 }] := by
  have header : ∀ c ∈ "func F() (int, error)".toList, Text.isLineBreak c = false := forall_of_all (by decide)
  have body : ∀ c ∈ " return 1, nil \x7d".toList, Text.isLineBreak c = false := forall_of_all (by decide)
  have untested : Untested " return 1, nil \x7d".toList := by decide
  have read : signatures "a.go" "func F() (int, error) \x7b".toList =
      [{ name := "F", results := [⟨"int", ""⟩, ⟨"error", ""⟩], file := "a.go", line := 1 }] := by
    decide +kernel
  have shown : resultsOf? "func F() (int, error)".toList = some "(int, error)".toList := by decide +kernel
  have plain : ¬ " \x7b".toList <:+: "(int, error)".toList := by
    rw [← Text.contains_iff]
    decide
  obtain ⟨written, s', shape, behind, -, kept⟩ := signatures_body header body untested read
  obtain rfl : "(int, error)".toList = written := Option.some.inj (shown.symm.trans shape)
  obtain rfl := kept.2 (.inr ⟨by decide, plain, by decide⟩)
  exact ⟨header, body, untested, read, behind⟩

/-- A body behind no results is read as a type. -/
example : signatures "a.go" "func F() \x7b\x7d".toList =
    [{ name := "F", results := [⟨"\x7b\x7d", ""⟩], file := "a.go", line := 1 }] := by
  decide +kernel

end Drift.Source.Go
