import Drift.Proofs.Source.Enclosed
import Drift.Proofs.Text.Characters

namespace Drift.Source

open Nesting

def isSpace (c : Char) : Bool := Text.isBlank c && !Text.isLineBreak c

theorem isBlank_of_isSpace {c : Char} (space : isSpace c = true) : Text.isBlank c = true := by
  rw [isSpace, Bool.and_eq_true] at space
  exact space.1

theorem isLineBreak_of_isSpace {c : Char} (space : isSpace c = true) : Text.isLineBreak c = false := by
  rw [isSpace, Bool.and_eq_true] at space
  simpa using space.2

theorem isSpace_nil : ∀ c ∈ ([] : List Char), isSpace c = true := by simp

theorem isSpace_space : ∀ c ∈ [' '], isSpace c = true := by
  simp
  decide

theorem isSpace_one : (!List.isEmpty [' '] && List.all [' '] isSpace) = true := by decide

def oneSpace : Text.Run isSpace := .of [' '] isSpace_one

/-- A text on one line that can be a part of a list: it starts and ends with no blank, closes its quotes and brackets,
and holds no comma outside of them. -/
structure IsPart (t : List Char) : Prop where
  filled : t ≠ []
  trimmed : Text.trim t = t
  closed : Closed plainBrackets (· ≠ ',') t
  whole : ∀ c ∈ t, Text.isLineBreak c = false

structure Padded (α : Type) where
  front : List Char := []
  item : α
  back : List Char := []
  frontSpace : ∀ c ∈ front, isSpace c = true := by exact isSpace_nil
  backSpace : ∀ c ∈ back, isSpace c = true := by exact isSpace_nil

variable {α β : Type} {write : α → List Char}

def Padded.map (f : α → β) (x : Padded α) : Padded β where
  front := x.front
  item := f x.item
  back := x.back
  frontSpace := x.frontSpace
  backSpace := x.backSpace

def Padded.text (write : α → List Char) (x : Padded α) : List Char := x.front ++ write x.item ++ x.back

def listed (write : α → List Char) (xs : List (Padded α)) : List Char := Text.joinWith [','] (xs.map (Padded.text write))

def marks : List Char := ',' :: '\'' :: '"' :: '\x60' :: plainBrackets

/-- A class of characters without the comma, the quotes and the brackets. -/
theorem plain_of_marks {brackets : List Char} {p : Char → Bool}
    (none : ∀ x ∈ ',' :: '\'' :: '"' :: '\x60' :: brackets, p x = false) {c : Char} (fits : p c = true) :
    c ≠ ',' ∧ isQuote c = false ∧ c ∉ brackets := by
  have other : c ∉ ',' :: '\'' :: '"' :: '\x60' :: brackets := fun mem => Text.ne_of_class fits (none c mem) rfl
  simp only [List.mem_cons, not_or] at other
  obtain ⟨comma, single, double, back, bracket⟩ := other
  exact ⟨comma, by simp [isQuote, single, double, back], bracket⟩

theorem plain_of_class {p : Char → Bool} (none : ∀ x ∈ marks, p x = false) {c : Char} (fits : p c = true) :
    c ≠ ',' ∧ isQuote c = false ∧ c ∉ plainBrackets := plain_of_marks none fits

theorem plain_of_isSpace {c : Char} (space : isSpace c = true) : c ≠ ',' ∧ isQuote c = false ∧ c ∉ plainBrackets :=
  plain_of_class (forall_of_all (by decide)) space

theorem plain_of_isWord {c : Char} (word : Text.isWord c = true) : c ≠ ',' ∧ isQuote c = false ∧ c ∉ plainBrackets :=
  plain_of_class (forall_of_all (by decide)) word

theorem closed_space {t : List Char} (space : ∀ c ∈ t, isSpace c = true) : Closed plainBrackets (· ≠ ',') t :=
  .of_plain fun c mem => plain_of_isSpace (space c mem)

theorem closed_word {t : List Char} (word : ∀ c ∈ t, Text.isWord c = true) : Closed plainBrackets (· ≠ ',') t :=
  .of_plain fun c mem => plain_of_isWord (word c mem)

theorem closed_padded (x : Padded α) (part : IsPart (write x.item)) : Closed plainBrackets (· ≠ ',') (x.text write) :=
  ((closed_space x.frontSpace).append part.closed).append (closed_space x.backSpace)

theorem trim_padded (x : Padded α) (trimmed : Text.trim (write x.item) = write x.item) :
    Text.trim (x.text write) = write x.item := by
  rw [Padded.text, Text.trim_append_blank fun c mem => isBlank_of_isSpace (x.backSpace c mem),
    Text.trim_blank_append fun c mem => isBlank_of_isSpace (x.frontSpace c mem), trimmed]

/-- Only commas and blanks are lost when a list is cut into its parts. -/
theorem count_splitParams {c : Char} (comma : c ≠ ',') (other : Text.isBlank c = false) (brackets text : List Char) :
    (splitParams brackets text).flatten.count c = text.count c := by
  -- the parts that are dropped are blank
  have kept : ∀ parts : List (List Char),
      ((parts.map Text.trim).filter fun p => !p.isEmpty).flatten.count c = parts.flatten.count c := by
    intro parts
    induction parts with
    | nil => rfl
    | cons part parts ih =>
      have same := Text.count_trim other part
      rw [List.map_cons, List.filter_cons, List.flatten_cons, List.count_append, ← ih, ← same]
      split
      · rw [List.flatten_cons, List.count_append]
      · rename_i empty
        have none : Text.trim part = [] := by simpa using empty
        simp [none]
  have apart : c ∉ [','] := by simpa using comma
  rw [splitParams, kept, ← Text.count_joinWith apart, splitTopLevel, joinWith_splitFrom]

theorem Balanced.cut {brackets : List Char} {p : Char → Prop} {t : List Char} (h : Balanced brackets p t)
    (paired : Paired brackets) (comma : ∀ c, p c → c ≠ ',') :
    splitTopLevel [','] brackets t = [t] ∧ (run brackets {} t).Outermost := by
  refine ⟨splitFrom_eq_singleton_iff.2 (h.whole paired .start ?_), (h.run_atDepth paired .start).outermost⟩
  intro _ c fits same
  exact comma c fits (List.head_eq_of_cons_eq same).symm

theorem Closed.cut {p : Char → Prop} {t : List Char} (h : Closed plainBrackets p t) (comma : ∀ c, p c → c ≠ ',') :
    splitTopLevel [','] plainBrackets t = [t] ∧ (run plainBrackets {} t).Outermost := by
  have arrow : ∀ c ∈ t, c ∈ closers plainBrackets → c ≠ '>' := by
    rintro c - mem rfl
    exact absurd mem (by decide)
  exact (h.balanced paired_plainBrackets arrow).cut paired_plainBrackets comma

/-- What holds of the characters of the parts, of the comma and of the blanks, holds of all characters of a list. -/
theorem forall_listed {p : Char → Prop} {xs : List (Padded α)} (comma : p ',') (space : ∀ c, isSpace c = true → p c)
    (parts : ∀ x ∈ xs, ∀ c ∈ write x.item, p c) : ∀ c ∈ listed write xs, p c := by
  intro c mem
  rcases Text.mem_joinWith mem with mem | ⟨part, inside, mem⟩
  · rw [List.mem_singleton] at mem
    rwa [mem]
  · obtain ⟨x, there, rfl⟩ := List.mem_map.1 inside
    rw [Padded.text, List.mem_append, List.mem_append] at mem
    rcases mem with (mem | mem) | mem
    · exact space c (x.frontSpace c mem)
    · exact parts x there c mem
    · exact space c (x.backSpace c mem)

theorem whole_listed {xs : List (Padded α)} (parts : ∀ x ∈ xs, IsPart (write x.item)) :
    ∀ c ∈ listed write xs, Text.isLineBreak c = false :=
  forall_listed (by decide) (fun _ => isLineBreak_of_isSpace) fun x mem => (parts x mem).whole

theorem closed_listed {xs : List (Padded α)} (parts : ∀ x ∈ xs, IsPart (write x.item)) :
    Closed plainBrackets (fun _ => True) (listed write xs) := by
  induction xs with
  | nil => exact .nil
  | cons x xs ih =>
    have first : Closed plainBrackets (fun _ => True) (x.text write) :=
      (closed_padded x (parts x (by simp))).mono fun _ _ _ => trivial
    cases xs with
    | nil => simpa [listed, Text.joinWith] using first
    | cons y xs =>
      have joined : listed write (x :: y :: xs) = x.text write ++ ',' :: listed write (y :: xs) := by
        simp [listed, Text.joinWith]
      rw [joined]
      exact first.append (.char trivial (by decide) (by decide) (ih fun z mem => parts z (by simp [mem])))

theorem passes_listed {d : Int} {xs : List (Padded α)} (parts : ∀ x ∈ xs, Passes d d (write x.item)) :
    Passes d d (listed write xs) := by
  have space : ∀ {t : List Char}, (∀ c ∈ t, isSpace c = true) → Passes d d t := fun blanks =>
    .free fun c mem => ⟨Text.ne_of_class (blanks c mem) (by decide), Text.ne_of_class (blanks c mem) (by decide)⟩
  induction xs with
  | nil => exact .nil
  | cons x xs ih =>
    have first : Passes d d (x.text write) :=
      ((space x.frontSpace).append (parts x (by simp))).append (space x.backSpace)
    cases xs with
    | nil => simpa [listed, Text.joinWith] using first
    | cons y xs =>
      have joined : listed write (x :: y :: xs) = x.text write ++ ([','] ++ listed write (y :: xs)) := by
        simp [listed, Text.joinWith]
      rw [joined]
      exact first.append (.append (.other (by decide) (by decide)) (ih fun z mem => parts z (by simp [mem])))

/-- The parts of a list come back when it is cut, if each of them is left whole. -/
theorem splitParams_of_cut {brackets : List Char} {xs : List (Padded α)} (comma : ',' ∉ brackets)
    (filled : ∀ x ∈ xs, write x.item ≠ []) (trimmed : ∀ x ∈ xs, Text.trim (write x.item) = write x.item)
    (cut : ∀ x ∈ xs, splitTopLevel [','] brackets (x.text write) = [x.text write] ∧
      (run brackets {} (x.text write)).Outermost) :
    splitParams brackets (listed write xs) = xs.map fun x => write x.item := by
  have items : (xs.map (Padded.text write)).map Text.trim = xs.map fun x => write x.item := by
    rw [List.map_map]
    exact List.map_congr_left fun x mem => trim_padded x (trimmed x mem)
  have kept : ∀ t ∈ xs.map fun x => write x.item, (!t.isEmpty) = true := by
    intro t mem
    obtain ⟨x, inside, rfl⟩ := List.mem_map.1 mem
    simpa using filled x inside
  cases xs with
  | nil => rfl
  | cons x xs =>
    have parts : splitTopLevel [','] brackets (listed write (x :: xs)) = (x :: xs).map (Padded.text write) := by
      refine splitTopLevel_joinWith (by decide) (by decide) (.of_not_mem (by decide) comma) (by simp) ?_
      intro t mem
      obtain ⟨y, inside, rfl⟩ := List.mem_map.1 mem
      exact cut y inside
    rw [splitParams, parts, items, List.filter_eq_self.2 kept]

theorem splitParams_listed {xs : List (Padded α)} (parts : ∀ x ∈ xs, IsPart (write x.item)) :
    splitParams plainBrackets (listed write xs) = xs.map fun x => write x.item :=
  splitParams_of_cut (by decide) (fun x mem => (parts x mem).filled) (fun x mem => (parts x mem).trimmed)
    fun x mem => (closed_padded x (parts x mem)).cut fun _ fits => fits

structure IsTypedPart (t : List Char) : Prop where
  filled : t ≠ []
  trimmed : Text.trim t = t
  balanced : Balanced typeBrackets (· ≠ ',') t
  whole : ∀ c ∈ t, Text.isLineBreak c = false

theorem balanced_space {t : List Char} (space : ∀ c ∈ t, isSpace c = true) : Balanced typeBrackets (· ≠ ',') t :=
  .of_plain fun c mem => plain_of_marks (forall_of_all (by decide)) (space c mem)

theorem splitParams_typed {xs : List (Padded α)} (parts : ∀ x ∈ xs, IsTypedPart (write x.item)) :
    splitParams typeBrackets (listed write xs) = xs.map fun x => write x.item := by
  refine splitParams_of_cut (by decide) (fun x mem => (parts x mem).filled) (fun x mem => (parts x mem).trimmed) ?_
  intro x mem
  have balanced : Balanced typeBrackets (· ≠ ',') (x.text write) :=
    ((balanced_space x.frontSpace).append (parts x mem).balanced).append (balanced_space x.backSpace)
  exact balanced.cut paired_typeBrackets fun _ fits => fits

end Drift.Source
