import Drift.Proofs.Source.Closed

namespace Drift.Source

abbrev closingParen (depth : Int) (t : List Char) : Option Nat := closingFrom ['('] [')'] depth t

variable {c : Char} {t u v w : List Char} {d e f : Int}

theorem closingParen_last : closingParen 1 (')' :: t) = some 0 := rfl

def Passes (d e : Int) (w : List Char) : Prop :=
  ∀ u, closingParen d (w ++ u) = (closingParen e u).map (· + w.length)

namespace Passes

theorem nil : Passes d d [] := by
  intro u
  simp

theorem append (left : Passes d e t) (right : Passes e f u) : Passes d f (t ++ u) := by
  intro v
  rw [List.append_assoc, left, right, Option.map_map]
  congr 1
  funext i
  simp only [Function.comp_apply, List.length_append]
  omega

theorem opening : Passes d (d + 1) ['('] := fun _ => rfl

theorem closing (more : d ≠ 1) : Passes d (d - 1) [')'] := by
  intro u
  simp [closingParen, closingFrom, more]

theorem other (opening : c ≠ '(') (closing : c ≠ ')') : Passes d d [c] := by
  intro u
  simp [closingParen, closingFrom, opening, closing]

theorem closingParen_eq (h : Passes d 1 w) (v : List Char) : closingParen d (w ++ ')' :: v) = some w.length := by
  rw [h, closingParen_last]
  simp

end Passes

theorem exists_of_closingParen {i : Nat} (found : closingParen d t = some i) :
    ∃ w v, t = w ++ ')' :: v ∧ w.length = i ∧ Passes d 1 w := by
  induction t generalizing d i with
  | nil => cases found
  | cons c t ih =>
    -- the first character is passed, unless it is the parenthesis that is looked for
    have later : ∀ {e}, Passes d e [c] → ∃ w v, c :: t = w ++ ')' :: v ∧ w.length = i ∧ Passes d 1 w := by
      intro e first
      have step := first t
      rw [List.singleton_append, found] at step
      obtain ⟨j, there, place⟩ := Option.map_eq_some_iff.1 step.symm
      obtain ⟨w, v, rfl, rfl, rest⟩ := ih there
      exact ⟨c :: w, v, rfl, by simpa using place, first.append rest⟩
    by_cases opening : c = '('
    · subst opening
      exact later .opening
    · by_cases closing : c = ')'
      · subst closing
        by_cases last : d = 1
        · subst last
          cases found
          exact ⟨[], t, rfl, rfl, .nil⟩
        · exact later (.closing last)
      · exact later (.other opening closing)

/-- A text is cut at the closing parenthesis of the one in front of it. -/
theorem enclosed_eq_some_iff : enclosed? t = some (w, v) ↔ t = w ++ ')' :: v ∧ Passes 1 1 w := by
  have same : enclosed? t = (closingParen 1 t).map fun i => (t.take i, t.drop (i + 1)) := by
    have first : closingFrom ['('] [')'] 0 ('(' :: t) = (closingParen 1 t).map (· + 1) := rfl
    rw [enclosed?, findClosing, List.drop_zero, first, Option.map_map, Option.map_map]
    congr 1
    funext i
    simp [Nat.add_comm 0]
  rw [same, Option.map_eq_some_iff]
  constructor
  · rintro ⟨i, found, parts⟩
    obtain ⟨w, v, rfl, rfl, passed⟩ := exists_of_closingParen found
    rw [List.take_left, List.drop_append, Prod.mk.injEq] at parts
    obtain ⟨rfl, rfl⟩ := parts
    exact ⟨by simp, passed⟩
  · rintro ⟨rfl, passed⟩
    exact ⟨w.length, passed.closingParen_eq v, by simp⟩

theorem Passes.free (none : ∀ c ∈ t, c ≠ '(' ∧ c ≠ ')') : Passes d d t := by
  induction t with
  | nil => exact .nil
  | cons c t ih =>
    obtain ⟨⟨opening, closing⟩, rest⟩ := List.forall_mem_cons.1 none
    exact .append (.other opening closing) (ih rest)

theorem Passes.enclosed (inner : Passes (d + 1) (d + 1) t) (positive : 0 < d) : Passes d d ('(' :: (t ++ [')'])) := by
  have level : d + 1 - 1 = d := by omega
  have close : Passes (d + 1) d [')'] := by
    have back := Passes.closing (d := d + 1) (by omega)
    rwa [level] at back
  exact .append .opening (inner.append close)

structure HoldsParens (brackets : List Char) : Prop where
  opening : '(' ∈ brackets
  closing : ')' ∈ brackets
  pairs : ∀ x ∈ pairs brackets, x = ('(', ')') ∨ x.1 ≠ '(' ∧ x.1 ≠ ')' ∧ x.2 ≠ '(' ∧ x.2 ≠ ')'

theorem holdsParens_plainBrackets : HoldsParens plainBrackets := ⟨by decide, by decide, by decide⟩

theorem Balanced.passes {brackets : List Char} {p : Char → Prop} (h : Balanced brackets p t)
    (parens : HoldsParens brackets) (bare : ∀ c ∈ t, isQuote c = false) (positive : 0 < d) : Passes d d t := by
  have other : ∀ {c}, c ∉ brackets → c ≠ '(' ∧ c ≠ ')' := by
    intro c plain
    constructor
    · rintro rfl
      exact plain parens.opening
    · rintro rfl
      exact plain parens.closing
  induction h generalizing d with
  | nil => exact .nil
  | char _ _ plain _ ih => exact .append (.other (other plain).1 (other plain).2) (ih (fun c mem => bare c (by simp [mem])) positive)
  | @arrow p c t _ plain _ _ _ _ ih =>
    have rest := ih (fun c mem => bare c (by simp [mem])) positive
    exact .append (.other (other plain).1 (other plain).2) (.append (.other (by decide) (by decide)) rest)
  | @quoted p l t closes _ ih =>
    have quote := bare l.quote (by simp [Literal.text])
    rw [l.isQuote] at quote
    cases quote
  | @group p o c inner t pair _ _ _ inside ih =>
    have rest := ih (fun c mem => bare c (by simp [mem])) positive
    have within : ∀ {e : Int}, 0 < e → Passes e e inner := inside fun c mem => bare c (by simp [mem])
    rcases parens.pairs _ pair with same | ⟨notOpen, notClose, notOpen', notClose'⟩
    · cases same
      have text : '(' :: (inner ++ ')' :: t) = '(' :: (inner ++ [')']) ++ t := by simp
      rw [text]
      exact (Passes.enclosed (within (by omega)) positive).append rest
    · exact .append (.other notOpen notClose) ((within positive).append (.append (.other notOpen' notClose') rest))

theorem Closed.passes {p : Char → Prop} (h : Closed plainBrackets p t) (bare : ∀ c ∈ t, isQuote c = false)
    (positive : 0 < d) : Passes d d t := by
  have arrow : ∀ c ∈ t, c ∈ closers plainBrackets → c ≠ '>' := by
    rintro c - mem rfl
    exact absurd mem (by decide)
  exact (h.balanced paired_plainBrackets arrow).passes holdsParens_plainBrackets bare positive

end Drift.Source
