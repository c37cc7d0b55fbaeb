import Drift.Proofs.Source.Nesting

namespace Drift.Source

open Nesting

/-- A unit of a literal: a character that stands for itself, or one behind a backslash. -/
inductive Piece where
  | plain (c : Char)
  | escaped (c : Char)
  deriving DecidableEq

namespace Piece

def text : Piece → List Char
  | plain c => [c]
  | escaped c => ['\\', c]

def Fits (q : Char) : Piece → Prop
  | plain c => c ≠ q ∧ c ≠ '\\'
  | escaped _ => True

end Piece

structure Literal where
  quote : Char
  isQuote : isQuote quote = true
  body : List Piece
  fits : ∀ u ∈ body, u.Fits quote

namespace Literal

def inside (l : Literal) : List Char := l.body.flatMap Piece.text

def text (l : Literal) : List Char := l.quote :: (l.inside ++ [l.quote])

def Closes (l : Literal) : Prop := l.body.getLast? ≠ some (.escaped '\\')

instance (l : Literal) : Decidable l.Closes := inferInstanceAs (Decidable (_ ≠ _))

theorem quote_ne_backslash (l : Literal) : l.quote ≠ '\\' := by
  intro same
  have quoted := l.isQuote
  rw [same] at quoted
  cases quoted

end Literal

variable {sep brackets : List Char} {s : Nesting} {q c : Char} {f after : Option Char}

theorem Nesting.cuts_quoted (quoted : s.quote = some q) : s.cuts sep brackets c f = false := by
  simp [cuts, quoted]

theorem Nesting.step_quoted (quoted : s.quote = some q) :
    s.step brackets c =
      { s with before := some c, quote := if c = q ∧ s.before ≠ some '\\' then none else some q } := by
  simp only [step, quoted]

theorem Nesting.step_quote (outside : s.quote = none) (quote : isQuote c = true) :
    s.step brackets c = { s with before := some c, quote := some c } := by
  simp only [step, outside, quote, if_true]

theorem Nesting.cuts_quote (quote : isQuote c = true) : s.cuts sep brackets c f = false := by
  simp [cuts, quote]

theorem run_append (brackets : List Char) (s : Nesting) (cs ds : List Char) :
    run brackets s (cs ++ ds) = run brackets (run brackets s cs) ds := List.foldl_append

theorem whole_append {cs ds : List Char} :
    Whole sep brackets after s (cs ++ ds) ↔
      Whole sep brackets (ds.head?.or after) s cs ∧ Whole sep brackets after (run brackets s cs) ds := by
  induction cs generalizing s with
  | nil => simp [Whole]
  | cons c cs ih =>
    have next : (cs ++ ds).head?.or after = cs.head?.or (ds.head?.or after) := by cases cs <;> rfl
    rw [List.cons_append, Whole, Whole, ih, run_cons, next, and_assoc]

theorem step_backslash (quoted : s.quote = some q) (other : q ≠ '\\') :
    s.step brackets '\\' = { s with before := some '\\' } := by
  simp [step_quoted quoted, Ne.symm other, quoted]

/-- A unit leaves the quote open: a quote within it has a backslash in front. -/
theorem run_piece {u : Piece} (quoted : s.quote = some q) (other : q ≠ '\\') (fits : u.Fits q) :
    run brackets s u.text = { s with before := u.text.getLast? } := by
  cases u with
  | plain c => simp [Piece.text, step_quoted quoted, fits.1, quoted]
  | escaped c =>
    have still : ({ s with before := some '\\' } : Nesting).quote = some q := quoted
    rw [Piece.text, run_cons, step_backslash quoted other, run_cons, run_nil, step_quoted still]
    simp [quoted]

theorem whole_piece {u : Piece} (quoted : s.quote = some q) (other : q ≠ '\\') :
    Whole sep brackets after s u.text := by
  cases u with
  | plain c => exact ⟨cuts_quoted quoted, trivial⟩
  | escaped c =>
    refine ⟨cuts_quoted quoted, ?_, trivial⟩
    rw [step_backslash quoted other]
    exact cuts_quoted quoted

theorem run_pieces {us : List Piece} (quoted : s.quote = some q) (other : q ≠ '\\') (fits : ∀ u ∈ us, u.Fits q) :
    run brackets s (us.flatMap Piece.text) = { s with before := (us.flatMap Piece.text).getLast?.or s.before } := by
  induction us generalizing s with
  | nil => rfl
  | cons u us ih =>
    obtain ⟨first, rest⟩ := List.forall_mem_cons.1 fits
    have filled : u.text.getLast?.or s.before = u.text.getLast? := by cases u <;> rfl
    rw [List.flatMap_cons, run_append, run_piece quoted other first, ih (by exact quoted) rest, List.getLast?_append,
      Option.or_assoc, filled]

theorem whole_pieces {us : List Piece} (quoted : s.quote = some q) (other : q ≠ '\\') (fits : ∀ u ∈ us, u.Fits q) :
    Whole sep brackets after s (us.flatMap Piece.text) := by
  induction us generalizing s with
  | nil => trivial
  | cons u us ih =>
    obtain ⟨first, rest⟩ := List.forall_mem_cons.1 fits
    rw [List.flatMap_cons, whole_append, run_piece quoted other first]
    exact ⟨whole_piece quoted other, ih (by exact quoted) rest⟩

namespace Literal

variable {l : Literal}

theorem last_inside (l : Literal) : l.inside.getLast?.getD l.quote = '\\' ↔ ¬ l.Closes := by
  rw [Closes, Decidable.not_not, inside]
  rcases List.eq_nil_or_concat l.body with empty | ⟨us, u, ends⟩
  · simp [empty, l.quote_ne_backslash]
  · rw [ends]
    cases u with
    | plain c =>
      have other : c ≠ '\\' := (l.fits (.plain c) (by simp [ends])).2
      simp [Piece.text, other]
    | escaped c => simp [Piece.text]

theorem run_text (outside : s.quote = none) :
    run brackets s l.text =
      { s with before := some l.quote, quote := if l.Closes then none else some l.quote } := by
  have opened : s.step brackets l.quote = { s with before := some l.quote, quote := some l.quote } :=
    step_quote outside l.isQuote
  -- whether the second quote closes depends on the character in front of it only
  have last := l.last_inside
  rw [text, run_cons, opened, run_append, inside, run_pieces rfl l.quote_ne_backslash l.fits, ← inside, run_cons,
    run_nil, step_quoted (q := l.quote) rfl]
  by_cases closes : l.Closes
  · simp [closes, last]
  · simp [closes, last]

theorem whole_text (outside : s.quote = none) : Whole sep brackets after s l.text := by
  refine ⟨cuts_quote l.isQuote, ?_⟩
  rw [step_quote outside l.isQuote, whole_append, inside, run_pieces rfl l.quote_ne_backslash l.fits]
  exact ⟨whole_pieces rfl l.quote_ne_backslash l.fits, cuts_quote l.isQuote, trivial⟩

end Literal

theorem splitFrom_append_whole {p t : List Char} (whole : Whole sep brackets t.head? s p) {d : List Char}
    {ds : List (List Char)} (parts : splitFrom sep brackets (run brackets s p) t = d :: ds) :
    splitFrom sep brackets s (p ++ t) = (p ++ d) :: ds := by
  induction p generalizing s with
  | nil => exact parts
  | cons c p ih =>
    obtain ⟨here, later⟩ := whole
    have next : (p ++ t).head? = p.head?.or t.head? := by cases p <;> rfl
    rw [List.cons_append, splitFrom_cons, next, here, ih later parts]
    rfl

/-- Behind a literal that closes a text is cut at the comma, and the rest is cut as if it stood alone. A literal that
ends with a backslash behind a backslash does not close: its first part takes the comma with it, and what stands behind. -/
theorem literal_cut_off_iff (l : Literal) (rest : List Char) :
    (splitTopLevel [','] plainBrackets (l.text ++ ',' :: rest) = l.text :: splitTopLevel [','] plainBrackets rest ↔
      l.Closes) ∧
    (¬ l.Closes → ∃ part parts,
      splitTopLevel [','] plainBrackets (l.text ++ ',' :: rest) = (l.text ++ ',' :: part) :: parts) := by
  have swallows : ¬ l.Closes → ∃ part parts,
      splitTopLevel [','] plainBrackets (l.text ++ ',' :: rest) = (l.text ++ ',' :: part) :: parts := by
    intro stays
    obtain ⟨part, parts, behind⟩ := exists_splitFrom [','] plainBrackets
      (step plainBrackets (run plainBrackets {} l.text) ',') rest
    refine ⟨part, parts, splitFrom_append_whole (Literal.whole_text rfl) ?_⟩
    have quoted : (run plainBrackets {} l.text).quote = some l.quote := by simp [Literal.run_text, stays]
    rw [splitFrom_cons, cuts_quoted quoted, behind]
    rfl
  refine ⟨⟨?_, ?_⟩, swallows⟩
  · intro cut
    refine Decidable.byContradiction fun stays => ?_
    obtain ⟨part, parts, swallowed⟩ := swallows stays
    simp [swallowed] at cut
  · intro closes
    refine splitTopLevel_append (by decide) (by decide) (.of_not_mem (by decide) (by decide)) ?_ ?_ rest
    · exact splitFrom_eq_singleton_iff.2 (Literal.whole_text rfl)
    · rw [Literal.run_text rfl, if_pos closes]
      exact ⟨rfl, rfl⟩

/-- The text `"\\",b`. -/
example : splitTopLevel [','] plainBrackets ['"', '\\', '\\', '"', ',', 'b'] = [['"', '\\', '\\', '"', ',', 'b']] := by
  decide

end Drift.Source
