import Drift.Proofs.Recognizer.Names
import Drift.Proofs.Recognizer.Repeated
import Drift.Proofs.Source.Parts
import Drift.Source.Handler

namespace Drift.Source

open Recognizer Nesting

theorem isBlank_of_isHandlerChar {c : Char} (fits : isHandlerChar c = true) : Text.isBlank c = false :=
  Text.isBlank_of_class (p := isHandlerChar) (by decide +kernel) fits

theorem plain_of_isHandlerChar {c : Char} (fits : isHandlerChar c = true) :
    c ≠ ',' ∧ isQuote c = false ∧ c ∉ plainBrackets := plain_of_class (forall_of_all (by decide)) fits

@[ext]
structure DottedName where
  first : Char
  rest : List Char
  letter : isDollarLetter first = true
  word : ∀ c ∈ rest, isHandlerChar c = true

namespace DottedName

def text (n : DottedName) : List Char := n.first :: n.rest

theorem text_injective {m n : DottedName} (same : m.text = n.text) : m = n := by
  obtain ⟨first, rest⟩ := List.cons_eq_cons.1 same
  exact DottedName.ext first rest

theorem fits (n : DottedName) : ∀ c ∈ n.text, isHandlerChar c = true := by
  refine List.forall_mem_cons.2 ⟨?_, n.word⟩
  have letter := n.letter
  rw [isDollarLetter, Bool.or_eq_true] at letter
  rw [isHandlerChar, isDollarWord, Bool.or_eq_true, Bool.or_eq_true, Bool.or_eq_true]
  exact .inl (.inl (letter.imp_left isWord_of_isLetter))

theorem visible (n : DottedName) : ∀ c ∈ n.text, Text.isBlank c = false := fun c mem => isBlank_of_isHandlerChar (n.fits c mem)

end DottedName

inductive Separated : List Char → Prop
  | blank {t : List Char} : (∀ c ∈ t, Text.isBlank c = true) → Separated t
  | sign {c : Char} {t : List Char} : (c == ';' || c == ',') = true → (∀ x ∈ t, Text.isBlank x = true) → Separated (c :: t)

inductive Finishes : List Char → Prop
  | intro {front parens gap t : List Char} : (∀ c ∈ front, Text.isBlank c = true) → (∀ c ∈ parens, c = ')') →
    (∀ c ∈ gap, Text.isBlank c = true) → Separated t → Finishes (front ++ (parens ++ (gap ++ t)))

theorem Finishes.nil : Finishes [] := @Finishes.intro [] [] [] [] (by simp) (by simp) (by simp) (.blank (by simp))

theorem Finishes.paren : Finishes [')'] := @Finishes.intro [] [')'] [] [] (by simp) (by simp) (by simp) (.blank (by simp))

theorem isHandlerChar_of_isBlank {c : Char} (blank : Text.isBlank c = true) : isHandlerChar c = false :=
  Text.class_of_isBlank (fun _ => isBlank_of_isHandlerChar) blank

theorem Separated.forall {p : Char → Prop} {t : List Char} (h : Separated t) (blanks : ∀ c, Text.isBlank c = true → p c)
    (semicolon : p ';') (comma : p ',') : ∀ c ∈ t, p c := by
  cases h with
  | blank blank => exact fun c mem => blanks c (blank c mem)
  | sign sign blank =>
    refine List.forall_mem_cons.2 ⟨?_, fun c mem => blanks c (blank c mem)⟩
    rw [Bool.or_eq_true, beq_iff_eq, beq_iff_eq] at sign
    rcases sign with rfl | rfl
    · exact semicolon
    · exact comma

theorem Finishes.stop {t : List Char} (h : Finishes t) : ∀ c ∈ t.head?, isHandlerChar c = false := by
  obtain ⟨frontBlank, closes, gapBlank, separated⟩ := h
  intro c mem
  have mem := List.mem_of_mem_head? mem
  simp only [List.mem_append] at mem
  rcases mem with mem | mem | mem | mem
  · exact isHandlerChar_of_isBlank (frontBlank c mem)
  · rw [closes c mem]
    decide
  · exact isHandlerChar_of_isBlank (gapBlank c mem)
  · exact separated.forall (fun _ => isHandlerChar_of_isBlank) (by decide) (by decide) c mem

def ending : Recognizer Unit := do
  gap
  skip (run (· == ')'))
  gap
  skip (optional (char fun c => c == ';' || c == ','))
  gap
  atEnd

theorem handlerArgument_eq : handlerArgument = (do let s ← name isDollarLetter isHandlerChar; ending; return s) := rfl

theorem Yields.ending : ending.Yields fun c _ _ => Finishes c.rest := by
  refine (Yields.bind .gap fun _ => .bind (.skip (.run _)) fun _ => .bind .gap fun _ => .bind (.skip (.optional .char)) fun _ =>
    .bind .gap fun _ => .atEnd).mono ?_
  rintro c _ c' ⟨-, c₁, ⟨front, first, frontBlank⟩, -, c₂, ⟨parens, second, closes⟩, -, c₃, ⟨gap, third, gapBlank⟩, -, c₄, ⟨o, fourth⟩,
    -, c₅, ⟨back, fifth, backBlank⟩, ended⟩
  have separated : Separated c₃.rest := by
    rw [ended, List.append_nil] at fifth
    rcases fourth with ⟨x, -, sign, read⟩ | ⟨-, rfl⟩
    · rw [read, fifth]
      exact .sign sign backBlank
    · rw [fifth]
      exact .blank backBlank
  rw [first, second, third]
  exact .intro frontBlank (by simpa using closes) gapBlank separated

theorem trimLeft_finish {front parens gap t : List Char} (frontBlank : ∀ c ∈ front, Text.isBlank c = true) (closes : ∀ c ∈ parens, c = ')')
    (gapBlank : ∀ c ∈ gap, Text.isBlank c = true) (separated : Separated t) :
    Text.trimLeftWhile Text.isBlank ((Text.trimLeftWhile Text.isBlank (front ++ (parens ++ (gap ++ t)))).dropWhile (· == ')')) =
      Text.trimLeftWhile Text.isBlank t := by
  have gone : ∀ {w u : List Char}, (∀ c ∈ w, Text.isBlank c = true) →
      Text.trimLeftWhile Text.isBlank (w ++ u) = Text.trimLeftWhile Text.isBlank u := fun blank => List.dropWhile_append_of_pos blank
  have blankOther : ∀ c, Text.isBlank c = true → (c == ')') = false := fun c blank =>
    beq_eq_false_iff_ne.2 (Text.ne_of_class blank (by decide))
  have other : ∀ c ∈ t, (c == ')') = false := separated.forall blankOther (by decide) (by decide)
  rw [gone frontBlank]
  cases parens with
  | nil =>
    have kept : (Text.trimLeftWhile Text.isBlank t).dropWhile (· == ')') = Text.trimLeftWhile Text.isBlank t :=
      Text.dropWhile_of_head fun c mem => other c ((List.dropWhile_sublist _).subset (List.mem_of_mem_head? mem))
    rw [List.nil_append, gone gapBlank, kept]
    exact Text.dropWhile_of_head Text.head_trimLeft
  | cons x parens =>
    have here : Text.isBlank x = false := by
      rw [closes x (by simp)]
      decide
    have behind : ∀ c ∈ (gap ++ t).head?, (c == ')') = false := fun c mem => by
      rcases List.mem_append.1 (List.mem_of_mem_head? mem) with mem | mem
      · exact blankOther c (gapBlank c mem)
      · exact other c mem
    have first : Text.trimLeftWhile Text.isBlank (x :: parens ++ (gap ++ t)) = x :: parens ++ (gap ++ t) :=
      Text.trimLeftWhile_of_not here _
    rw [first, List.dropWhile_append_of_pos (by simpa using closes), Text.dropWhile_of_head behind, gone gapBlank]

theorem ending_prefers {t : List Char} (h : Finishes t) (b : Option Char) : ∃ b', ending.Prefers ⟨b, t⟩ () ⟨b', []⟩ := by
  obtain ⟨frontBlank, closes, gapBlank, separated⟩ := h
  rename_i front parens middle t
  obtain ⟨b₁, first⟩ := Reads.gap_trimmed (b := b) (t := front ++ (parens ++ (middle ++ t)))
  obtain ⟨b₂, second⟩ := Reads.run_dropped (p := (· == ')')) (b := b₁)
    (t := Text.trimLeftWhile Text.isBlank (front ++ (parens ++ (middle ++ t))))
  obtain ⟨b₃, third⟩ := Reads.gap_trimmed (b := b₂)
    (t := (Text.trimLeftWhile Text.isBlank (front ++ (parens ++ (middle ++ t)))).dropWhile (· == ')'))
  rw [trimLeft_finish frontBlank closes gapBlank separated] at third
  have last : ∀ (b : Option Char) {u : List Char}, (∀ c ∈ u, Text.isBlank c = true) →
      ∃ b', (do gap; atEnd : Recognizer Unit).Prefers ⟨b, u⟩ () ⟨b', []⟩ := by
    intro b u blank
    have read := Reads.gap (b := b) (t := []) blank (by simp)
    rw [List.append_nil] at read
    exact ⟨_, .after read Reads.atEnd.prefers⟩
  cases separated with
  | blank blank =>
    have none : Text.trimLeftWhile Text.isBlank (t ++ []) = [] := List.dropWhile_append_of_pos blank
    rw [List.append_nil] at none
    rw [none] at third
    obtain ⟨b', ended⟩ := last b₃ (u := []) (by simp)
    exact ⟨b', .after first (.after second (.after third (.after (.skip (.optional_none .char_nil)) ended)))⟩
  | @sign c u sign blank =>
    have visible : Text.isBlank c = false := by
      rw [Bool.or_eq_true, beq_iff_eq, beq_iff_eq] at sign
      rcases sign with rfl | rfl <;> decide
    have stays : Text.trimLeftWhile Text.isBlank (c :: u) = c :: u := Text.trimLeftWhile_of_not visible u
    rw [stays] at third
    obtain ⟨b', ended⟩ := last (some c) blank
    exact ⟨b', .after first (.after second (.after third (.bind (.skip (.optional_some (Reads.char sign).prefers)) ended)))⟩

theorem Yields.dottedName :
    (name isDollarLetter isHandlerChar).Yields fun c w c' => ∃ n : DottedName, w = n.text ∧ c.rest = n.text ++ c'.rest := by
  refine (Yields.bind .char fun x => .bind (.run isHandlerChar) fun w => .pure (x :: w)).mono ?_
  rintro c _ _ ⟨x, c', ⟨letter, first⟩, w, _, ⟨rest, word⟩, rfl, rfl⟩
  exact ⟨⟨x, w, letter, word⟩, rfl, by rw [first, rest]; rfl⟩

theorem handlerArgument_eq_some_iff {cs w : List Char} :
    handlerArgument.atStart cs = some w ↔ ∃ (n : DottedName) (t : List Char), w = n.text ∧ cs = n.text ++ t ∧ Finishes t := by
  rw [handlerArgument_eq]
  constructor
  · intro reading
    obtain ⟨-, -, c', ⟨n, rfl, whole⟩, -, -, finishes, rfl, -⟩ :=
      (Yields.bind Yields.dottedName fun s => .bind Yields.ending fun _ => .pure s).of_atStart reading
    exact ⟨n, c'.rest, rfl, whole, finishes⟩
  · rintro ⟨n, t, rfl, rfl, finishes⟩
    obtain ⟨b', ended⟩ := ending_prefers finishes (n.rest.getLast? <|> some n.first)
    exact Prefers.atStart (.after (.name n.letter n.word finishes.stop) (.bind ended Reads.pure.prefers))

theorem handlerArgument_text (n : DottedName) {t w : List Char} (stop : ∀ c ∈ t.head?, isHandlerChar c = false) :
    handlerArgument.atStart (n.text ++ t) = some w ↔ w = n.text ∧ Finishes t := by
  rw [handlerArgument_eq_some_iff]
  constructor
  · rintro ⟨m, u, rfl, same, finishes⟩
    have names := congrArg (List.takeWhile isHandlerChar) same
    rw [Text.takeWhile_append_of_stop n.fits stop, Text.takeWhile_append_of_stop m.fits finishes.stop] at names
    rw [names, List.append_cancel_left_eq] at same
    exact ⟨names.symm, same ▸ finishes⟩
  · rintro ⟨rfl, finishes⟩
    exact ⟨n, t, rfl, rfl, finishes⟩

def named? (part : List Char) : Option (List Char) := handlerArgument.atStart (Text.trim part)

def lastNamed? (parts : List (List Char)) : Option (List Char) := (parts.filterMap named?).getLast?

theorem lastNamed_append (ps qs : List (List Char)) : lastNamed? (ps ++ qs) = (lastNamed? qs).or (lastNamed? ps) := by
  rw [lastNamed?, List.filterMap_append, List.getLast?_append]
  rfl

theorem lastNamed_cons (p : List Char) (ps : List (List Char)) : lastNamed? (p :: ps) = (lastNamed? ps).or (named? p) := by
  have single : lastNamed? [p] = named? p := by
    cases named : named? p <;> simp [lastNamed?, named]
  rw [← List.singleton_append, lastNamed_append, single]

theorem handlerName_eq (args : List Char) :
    handlerName args = (lastNamed? (splitTopLevel [','] plainBrackets args)).getD [] := by
  have none : handlerArgument.atStart [] = none := rfl
  have kept : ∀ parts : List (List Char),
      ((parts.map Text.trim).filter fun p => !p.isEmpty).reverse.findSome? handlerArgument.atStart = lastNamed? parts := by
    intro parts
    induction parts with
    | nil => rfl
    | cons p parts ih =>
      rw [List.map_cons, List.filter_cons, lastNamed_cons, ← ih, named?]
      split
      · rw [List.reverse_cons, List.findSome?_append]
        cases handler : handlerArgument.atStart (Text.trim p) <;> simp [handler]
      · rename_i empty
        have blank : Text.trim p = [] := by simpa using empty
        rw [blank, none, Option.or_none]
  rw [handlerName, splitParams, kept]

theorem named_text (n : DottedName) : named? (' ' :: n.text) = some n.text := by
  have trimmed : Text.trim ([' '] ++ n.text) = n.text := by
    rw [Text.trim_blank_append Text.isBlank_space]
    exact Text.trim_eq_self (fun c mem => n.visible c (List.mem_of_mem_head? mem)) fun c mem => n.visible c (List.mem_of_getLast? mem)
  have read := handlerArgument_text n (t := []) (w := n.text) (by simp)
  rw [List.append_nil] at read
  rw [named?, ← List.singleton_append, trimmed]
  exact read.2 ⟨rfl, .nil⟩

theorem named_closed (n : DottedName) {t w : List Char} :
    named? (' ' :: (n.text ++ ')' :: t)) = some w ↔ w = n.text ∧ Finishes (')' :: Text.trimRightWhile Text.isBlank t) := by
  have trimmed : Text.trim ([' '] ++ (n.text ++ ')' :: t)) = n.text ++ ')' :: Text.trimRightWhile Text.isBlank t := by
    rw [Text.trim_blank_append Text.isBlank_space]
    exact Text.trim_append_cons (fun c mem => n.visible c (List.mem_of_mem_head? mem)) (by decide) t
  rw [named?, ← List.singleton_append, trimmed]
  exact handlerArgument_text n (by rintro _ ⟨⟩; decide)

def listedNames (ns : List DottedName) : List Char := ns.flatMap fun n => ' ' :: (n.text ++ [','])

/-- What holds of the comma, the space and the characters of names, holds of all characters of the arguments. -/
theorem forall_arguments {p : Char → Prop} (comma : p ',') (space : p ' ') (name : ∀ c, isHandlerChar c = true → p c)
    (ns : List DottedName) (n : DottedName) : ∀ c ∈ listedNames ns ++ ' ' :: n.text, p c := by
  have argument : ∀ (m : DottedName), ∀ c ∈ ' ' :: m.text, p c := fun m =>
    List.forall_mem_cons.2 ⟨space, fun c mem => name c (m.fits c mem)⟩
  refine List.forall_mem_append.2 ⟨fun c mem => ?_, argument n⟩
  obtain ⟨m, -, mem⟩ := List.mem_flatMap.1 mem
  rw [← List.cons_append, List.mem_append, List.mem_singleton] at mem
  rcases mem with mem | rfl
  · exact argument m c mem
  · exact comma

theorem closed_argument (n : DottedName) : Closed plainBrackets (· ≠ ',') (' ' :: n.text) :=
  .char (by decide) (by decide) (by decide) (.of_plain fun c mem => plain_of_isHandlerChar (n.fits c mem))

theorem splitTopLevel_listedNames (ns : List DottedName) (t : List Char) :
    splitTopLevel [','] plainBrackets (listedNames ns ++ t) =
      ns.map (fun n => ' ' :: n.text) ++ splitTopLevel [','] plainBrackets t := by
  induction ns with
  | nil => rfl
  | cons n ns ih =>
    obtain ⟨whole, outer⟩ := (closed_argument n).cut fun _ fits => fits
    have shape : listedNames (n :: ns) ++ t = (' ' :: n.text) ++ ',' :: (listedNames ns ++ t) := by simp [listedNames]
    rw [shape, splitTopLevel_append (by decide) (by decide) (.of_not_mem (by decide) (by decide)) whole outer, ih]
    rfl

/-- A closing parenthesis that nothing has opened is passed, and what stands behind it is read as from the start. -/
theorem splitTopLevel_closed (n : DottedName) {t first : List Char} {later : List (List Char)}
    (parts : splitTopLevel [','] plainBrackets t = first :: later) :
    splitTopLevel [','] plainBrackets (' ' :: (n.text ++ ')' :: t)) = (' ' :: (n.text ++ ')' :: first)) :: later := by
  have arrow : ∀ c ∈ ' ' :: n.text, c ∈ closers plainBrackets → c ≠ '>' := by
    rintro c - mem rfl
    exact absurd mem (by decide)
  have closed := (closed_argument n).run_atDepth paired_plainBrackets arrow .start
  have outer : (run plainBrackets {} (' ' :: n.text ++ [')'])).Outermost := by
    rw [run_append, run_cons, run_nil, closed.outermost.step_eq]
    exact ⟨by decide, by decide⟩
  have whole : Whole [','] plainBrackets t.head? {} (' ' :: n.text ++ [')']) := by
    rw [whole_append]
    refine ⟨(closed_argument n).whole paired_plainBrackets arrow .start ?_, ?_, trivial⟩
    · intro _ c fits same
      exact fits (List.head_eq_of_cons_eq same).symm
    · exact cuts_other (by decide)
  have behind : splitFrom [','] plainBrackets (run plainBrackets {} (' ' :: n.text ++ [')'])) t = first :: later := by
    rw [splitFrom_outermost (by decide) (by decide) outer, parts]
  simpa [splitTopLevel] using splitFrom_append_whole whole behind

/-- What is read of the arguments of a call with the text behind it: the last name there is. -/
theorem lastNamed_call (ns : List DottedName) (n : DottedName) {t first : List Char} {later : List (List Char)}
    (parts : splitTopLevel [','] plainBrackets t = first :: later) :
    lastNamed? (splitTopLevel [','] plainBrackets (listedNames ns ++ ' ' :: (n.text ++ ')' :: t))) =
      ((lastNamed? later).or (named? (' ' :: (n.text ++ ')' :: first)))).or (ns.getLast?.map DottedName.text) := by
  have names : lastNamed? (ns.map fun m => ' ' :: m.text) = ns.getLast?.map DottedName.text := by
    have all : (ns.map fun m => ' ' :: m.text).filterMap named? = ns.map DottedName.text := by
      have each : (named? ∘ fun m => ' ' :: m.text) = some ∘ DottedName.text := funext named_text
      rw [List.filterMap_map, each, List.filterMap_eq_map]
    rw [lastNamed?, all, List.getLast?_map]
  rw [splitTopLevel_listedNames, splitTopLevel_closed n parts, lastNamed_append, lastNamed_cons, names]

theorem whole_blank {brackets back : List Char} (blank : ∀ c ∈ back, Text.isBlank c = true) (s : Nesting) :
    Whole [','] brackets none s back := by
  induction back generalizing s with
  | nil => trivial
  | cons c back ih =>
    obtain ⟨here, rest⟩ := List.forall_mem_cons.1 blank
    have other : c ≠ ',' := Text.ne_of_class here (by decide)
    exact ⟨cuts_other (by simpa using other.symm), ih rest _⟩

theorem splitFrom_append_blank {back : List Char} (blank : ∀ c ∈ back, Text.isBlank c = true) (brackets : List Char) (s : Nesting)
    (t : List Char) : ∃ parts last, splitFrom [','] brackets s t = parts ++ [last] ∧
      splitFrom [','] brackets s (t ++ back) = parts ++ [last ++ back] := by
  induction t generalizing s with
  | nil => exact ⟨[], [], rfl, splitFrom_eq_singleton_iff.2 (whole_blank blank s)⟩
  | cons c t ih =>
    obtain ⟨parts, last, short, long⟩ := ih (s.step brackets c)
    have same : s.cuts [','] brackets c (t ++ back).head? = s.cuts [','] brackets c t.head? := by
      rw [Bool.eq_iff_iff, cuts_iff (by decide), cuts_iff (by decide)]
      simp
    rw [List.cons_append, splitFrom_cons, splitFrom_cons, same, short, long]
    split
    · exact ⟨[] :: parts, last, rfl, rfl⟩
    · cases parts with
      | nil => exact ⟨[], c :: last, rfl, rfl⟩
      | cons p parts => exact ⟨(c :: p) :: parts, last, rfl, rfl⟩

theorem handlerName_append_blank {back : List Char} (blank : ∀ c ∈ back, Text.isBlank c = true) (args : List Char) :
    handlerName (args ++ back) = handlerName args := by
  obtain ⟨parts, last, short, long⟩ := splitFrom_append_blank blank plainBrackets {} args
  rw [handlerName, handlerName, splitParams, splitParams, splitTopLevel, splitTopLevel, short, long, List.map_append, List.map_append,
    List.map_singleton, List.map_singleton, Text.trim_append_blank blank]

end Drift.Source
