import Drift.Proofs.Text.Joining
import Drift.Source.Nesting

namespace Drift.Source

variable {sep brackets : List Char} {s : Nesting} {c d : Char} {f : Option Char}

namespace Nesting

def run (brackets : List Char) (s : Nesting) (cs : List Char) : Nesting := cs.foldl (step brackets) s

@[simp] theorem run_nil : run brackets s [] = s := rfl

@[simp] theorem run_cons (cs : List Char) : run brackets s (c :: cs) = run brackets (s.step brackets c) cs := rfl

structure Outermost (s : Nesting) : Prop where
  quote : s.quote = none
  depth : s.depth = 0

theorem Outermost.start : Outermost {} := ⟨rfl, rfl⟩

@[simp] theorem step_before : (s.step brackets c).before = some c := by
  rw [step]
  cases s.quote with
  | some q => rfl
  | none =>
    dsimp only
    split
    · rfl
    · split
      · rfl
      · split <;> rfl

/-- Outside of quotes and brackets no step depends on the character before: what a bracket closes or an arrow
leaves open is no bracket there. -/
theorem Outermost.step_eq (outer : s.Outermost) (brackets : List Char) (c : Char) :
    s.step brackets c = step brackets {} c := by
  rw [step, step, outer.quote, outer.depth]
  dsimp only
  split
  · rfl
  · split
    · rfl
    · simp

structure Separates (brackets : List Char) (d : Char) : Prop where
  quote : isQuote d = false
  opener : d ∉ openers brackets
  closer : d ∉ closers brackets

theorem eq_of_cuts (cut : s.cuts sep brackets c f = true) : sep = [c] := by
  simp only [cuts, Bool.and_eq_true, beq_iff_eq] at cut
  exact cut.1.1.2

/-- A sign that ends no arrow is cut at outside of quotes and brackets, an equals sign unless it is part of an
operator. -/
theorem cuts_iff (sign : d ≠ '>') :
    s.cuts [d] brackets c f = true ↔
      c = d ∧ s.Outermost ∧ Separates brackets d ∧ (d = '=' → s.isOperator f = false) := by
  have arrow : s.endsArrow d = false := by simp [endsArrow, sign]
  constructor
  · intro cut
    obtain rfl : d = c := by simpa using eq_of_cuts cut
    simp only [cuts, arrow, Bool.and_eq_true, Bool.not_eq_true', Bool.and_eq_false_iff, beq_iff_eq,
      Option.isNone_iff_eq_none, List.contains_eq_mem, decide_eq_false_iff_not] at cut
    obtain ⟨⟨⟨⟨⟨⟨quote, plain⟩, opener⟩, closer⟩, -⟩, depth⟩, operator⟩ := cut
    refine ⟨rfl, ⟨quote, depth⟩, ⟨plain, opener, by simpa using closer⟩, ?_⟩
    rintro rfl
    simpa using operator
  · rintro ⟨rfl, ⟨quote, depth⟩, ⟨plain, opener, closer⟩, operator⟩
    by_cases equals : c = '='
    · simp [cuts, quote, depth, plain, opener, closer, operator equals]
    · simp [cuts, quote, depth, plain, opener, closer, equals]

theorem outermost_of_cut (sign : d ≠ '>') (cut : s.cuts [d] brackets c f = true) : (s.step brackets c).Outermost := by
  obtain ⟨rfl, outer, separates, -⟩ := (cuts_iff sign).1 cut
  rw [outer.step_eq, step]
  simp only [separates.quote, separates.opener, separates.closer, Bool.false_eq_true, if_false, false_and]
  exact ⟨rfl, rfl⟩

def Whole (sep brackets : List Char) (after : Option Char) : Nesting → List Char → Prop
  | _, [] => True
  | s, c :: r => s.cuts sep brackets c (r.head?.or after) = false ∧ Whole sep brackets after (s.step brackets c) r

end Nesting

open Nesting Text

theorem splitFrom_cons (cs : List Char) :
    splitFrom sep brackets s (c :: cs) =
      if s.cuts sep brackets c cs.head? then [] :: splitFrom sep brackets (s.step brackets c) cs
      else consHead c (splitFrom sep brackets (s.step brackets c) cs) := rfl

theorem exists_splitFrom (sep brackets : List Char) (s : Nesting) (cs : List Char) :
    ∃ p ps, splitFrom sep brackets s cs = p :: ps := by
  cases cs with
  | nil => exact ⟨[], [], rfl⟩
  | cons c cs =>
    rw [splitFrom_cons]
    split
    · exact ⟨_, _, rfl⟩
    · cases splitFrom sep brackets (s.step brackets c) cs with
      | nil => exact ⟨_, _, rfl⟩
      | cons p ps => exact ⟨_, _, rfl⟩

theorem joinWith_splitFrom (sep brackets : List Char) (s : Nesting) (cs : List Char) :
    joinWith sep (splitFrom sep brackets s cs) = cs := by
  induction cs generalizing s with
  | nil => rfl
  | cons c cs ih =>
    have rest := ih (s.step brackets c)
    obtain ⟨p, ps, parts⟩ := exists_splitFrom sep brackets (s.step brackets c) cs
    rw [parts] at rest
    rw [splitFrom_cons, parts]
    cases cut : s.cuts sep brackets c cs.head? with
    | true =>
      rw [if_pos rfl, joinWith, List.intercalate_cons_cons, ← joinWith, rest, eq_of_cuts cut]
      rfl
    | false =>
      rw [if_neg (by simp), consHead]
      cases ps with
      | nil => rw [← rest]; simp [joinWith]
      | cons q ps => rw [← rest]; simp [joinWith]

theorem splitFrom_eq_singleton_iff {cs : List Char} :
    splitFrom sep brackets s cs = [cs] ↔ Whole sep brackets none s cs := by
  induction cs generalizing s with
  | nil => exact iff_of_true rfl trivial
  | cons c cs ih =>
    rw [splitFrom_cons, Whole, Option.or_none, ← ih]
    cases cut : s.cuts sep brackets c cs.head? with
    | true => simp
    | false =>
      obtain ⟨p, ps, parts⟩ := exists_splitFrom sep brackets (s.step brackets c) cs
      simp [parts, consHead]

/-- A part that is left whole up to a separator comes first, and behind the separator the reading goes on. -/
theorem splitFrom_append {p rest : List Char} (whole : Whole sep brackets (some c) s p)
    (cut : (run brackets s p).cuts sep brackets c rest.head? = true) :
    splitFrom sep brackets s (p ++ c :: rest) =
      p :: splitFrom sep brackets ((run brackets s p).step brackets c) rest := by
  induction p generalizing s with
  | nil =>
    rw [run_nil] at cut ⊢
    rw [List.nil_append, splitFrom_cons, if_pos cut]
  | cons x p ih =>
    obtain ⟨here, later⟩ := whole
    have next : (p ++ c :: rest).head? = p.head?.or (some c) := by cases p <;> rfl
    rw [List.cons_append, splitFrom_cons, next, here, ih later cut]
    rfl

/-- Outside of quotes and brackets a text is read as from its start, but that an equals sign at its front might
have been part of an operator. -/
theorem whole_outermost {after : Option Char} {p : List Char} (sign : d ≠ '>') (outer : s.Outermost)
    (front : d = '=' → p.head? ≠ some '=') :
    Whole [d] brackets after s p ↔ Whole [d] brackets after {} p := by
  cases p with
  | nil => exact Iff.rfl
  | cons x p =>
    have same : s.cuts [d] brackets x (p.head?.or after) = cuts [d] brackets {} x (p.head?.or after) := by
      rw [Bool.eq_iff_iff, cuts_iff sign, cuts_iff sign]
      apply and_congr_right
      rintro rfl
      rw [iff_true_intro outer, iff_true_intro Outermost.start]
      refine and_congr_right fun _ => and_congr_right fun _ => forall_congr' fun equals => ?_
      exact absurd (by rw [equals]; rfl) (front equals)
    rw [Whole, Whole, outer.step_eq, same]

/-- What is cut at with nothing behind it is cut at with a separator behind it that is cut at as well: two equals
signs are an operator. -/
theorem cuts_before_cut {x : Char} (sign : d ≠ '>') (next : (s.step brackets c).cuts [d] brackets x f = true)
    (cut : s.cuts [d] brackets c none = true) : s.cuts [d] brackets c (some x) = true := by
  obtain ⟨rfl, -, -, operator⟩ := (cuts_iff sign).1 next
  obtain ⟨rfl, outer, separates, -⟩ := (cuts_iff sign).1 cut
  refine (cuts_iff sign).2 ⟨rfl, outer, separates, fun equals => ?_⟩
  have alone := operator equals
  rw [isOperator, step_before, equals] at alone
  simp at alone

theorem head_of_splitFrom {p : List Char} {ps : List (List Char)} {cs : List Char}
    (parts : splitFrom sep brackets s cs = p :: ps) (filled : p ≠ []) : p.head? = cs.head? := by
  obtain ⟨x, p, rfl⟩ := List.exists_cons_of_ne_nil filled
  rw [← joinWith_splitFrom sep brackets s cs, parts]
  cases ps <;> simp [joinWith]

theorem cuts_of_splitFrom_nil {ps : List (List Char)} {cs : List Char}
    (parts : splitFrom sep brackets s (c :: cs) = [] :: ps) : s.cuts sep brackets c cs.head? = true := by
  cases cut : s.cuts sep brackets c cs.head? with
  | true => rfl
  | false =>
    obtain ⟨q, qs, more⟩ := exists_splitFrom sep brackets (s.step brackets c) cs
    rw [splitFrom_cons, cut, more] at parts
    cases parts

/-- The first part is whole read from where the text is read, and each of the others read from its own start. -/
theorem splitFrom_whole (sign : d ≠ '>') (brackets : List Char) (s : Nesting) (cs : List Char) :
    ∃ p ps, splitFrom [d] brackets s cs = p :: ps ∧ Whole [d] brackets none s p ∧
      ∀ q ∈ ps, Whole [d] brackets none {} q := by
  induction cs generalizing s with
  | nil => exact ⟨[], [], rfl, trivial, by simp⟩
  | cons c cs ih =>
    obtain ⟨p, ps, parts, first, others⟩ := ih (s.step brackets c)
    rw [splitFrom_cons, parts]
    cases cut : s.cuts [d] brackets c cs.head? with
    | true =>
      refine ⟨[], p :: ps, rfl, trivial, List.forall_mem_cons.2 ⟨?_, others⟩⟩
      refine (whole_outermost sign (outermost_of_cut sign cut) fun equals head => ?_).1 first
      obtain ⟨-, -, -, operator⟩ := (cuts_iff sign).1 cut
      have alone := operator equals
      rw [← head_of_splitFrom parts (by rintro rfl; cases head), head] at alone
      simp [isOperator] at alone
    | false =>
      refine ⟨c :: p, ps, rfl, ⟨?_, first⟩, others⟩
      rw [Option.or_none]
      by_cases empty : p = []
      · subst empty
        cases cs with
        | nil => exact cut
        | cons x cs =>
          cases alone : s.cuts [d] brackets c none with
          | false => exact alone
          | true =>
            rw [List.head?_cons, cuts_before_cut sign (cuts_of_splitFrom_nil parts) alone] at cut
            cases cut
      · rwa [head_of_splitFrom parts empty]

theorem splitFrom_outermost (sign : d ≠ '>') (equals : d ≠ '=') (outer : s.Outermost) (cs : List Char) :
    splitFrom [d] brackets s cs = splitTopLevel [d] brackets cs := by
  cases cs with
  | nil => rfl
  | cons c cs =>
    have same : s.cuts [d] brackets c cs.head? = cuts [d] brackets {} c cs.head? := by
      rw [Bool.eq_iff_iff, cuts_iff sign, cuts_iff sign, iff_true_intro outer, iff_true_intro Outermost.start]
      simp [equals]
    rw [splitTopLevel, splitFrom_cons, splitFrom_cons, same, outer.step_eq]

/-- Only for an equals sign does it matter what stands behind a text. -/
theorem whole_behind {a b : Option Char} {p : List Char} (sign : d ≠ '>') (equals : d ≠ '=') :
    Whole [d] brackets a s p ↔ Whole [d] brackets b s p := by
  induction p generalizing s with
  | nil => exact Iff.rfl
  | cons c p ih =>
    have same : s.cuts [d] brackets c (p.head?.or a) = s.cuts [d] brackets c (p.head?.or b) := by
      rw [Bool.eq_iff_iff, cuts_iff sign, cuts_iff sign]
      simp [equals]
    rw [Whole, Whole, same, ih]

theorem mem_of_mem_alternate {cs : List Char} (mem : c ∈ alternate cs) : c ∈ cs := by
  fun_induction alternate cs with
  | case1 => exact mem
  | case2 x => exact mem
  | case3 x y r ih =>
    rcases List.mem_cons.1 mem with rfl | mem
    · exact List.mem_cons_self
    · exact List.mem_cons_of_mem x (List.mem_cons_of_mem y (ih mem))

theorem Nesting.Separates.of_not_mem (quote : isQuote d = false) (other : d ∉ brackets) : Separates brackets d :=
  ⟨quote, fun mem => other (mem_of_mem_alternate mem), fun mem => other (List.mem_of_mem_tail (mem_of_mem_alternate mem))⟩

/-- A part that is left whole, and that closes what it opens, is cut off at the separator behind it. -/
theorem splitTopLevel_append {p : List Char} (sign : d ≠ '>') (equals : d ≠ '=') (separates : Separates brackets d)
    (whole : splitTopLevel [d] brackets p = [p]) (closed : (run brackets {} p).Outermost) (rest : List Char) :
    splitTopLevel [d] brackets (p ++ d :: rest) = p :: splitTopLevel [d] brackets rest := by
  have cut : (run brackets {} p).cuts [d] brackets d rest.head? = true :=
    (cuts_iff sign).2 ⟨rfl, closed, separates, fun same => absurd same equals⟩
  have left : Whole [d] brackets (some d) {} p :=
    (whole_behind sign equals).1 (splitFrom_eq_singleton_iff.1 whole)
  rw [splitTopLevel, splitFrom_append left cut, splitFrom_outermost sign equals (outermost_of_cut sign cut)]

theorem splitTopLevel_joinWith {parts : List (List Char)} (sign : d ≠ '>') (equals : d ≠ '=')
    (separates : Separates brackets d) (filled : parts ≠ [])
    (closed : ∀ p ∈ parts, splitTopLevel [d] brackets p = [p] ∧ (run brackets {} p).Outermost) :
    splitTopLevel [d] brackets (joinWith [d] parts) = parts := by
  induction parts with
  | nil => exact absurd rfl filled
  | cons p parts ih =>
    obtain ⟨whole, outer⟩ := closed p (by simp)
    cases parts with
    | nil => simpa [joinWith] using whole
    | cons q parts =>
      have rest := ih (by simp) fun r mem => closed r (by simp [mem])
      have joined : joinWith [d] (p :: q :: parts) = p ++ d :: joinWith [d] (q :: parts) := by simp [joinWith]
      rw [joined, splitTopLevel_append sign equals separates whole outer, rest]

/-- Cutting a text and joining the parts gives the text back. A part is not cut again, with any separator that
ends no arrow, such as a comma or an equals sign. And parts that are left whole, and that close their quotes and brackets,
come back when they are joined with commas, unless the comma is a bracket. -/
theorem cutting_inverts_joining :
    (∀ sep brackets text, joinWith sep (splitTopLevel sep brackets text) = text) ∧
    (∀ d, d ≠ '>' → ∀ brackets text, ∀ part ∈ splitTopLevel [d] brackets text,
      splitTopLevel [d] brackets part = [part]) ∧
    ∀ brackets, ',' ∉ brackets → ∀ parts, parts ≠ [] →
      (∀ part ∈ parts, splitTopLevel [','] brackets part = [part] ∧ (run brackets {} part).Outermost) →
      splitTopLevel [','] brackets (joinWith [','] parts) = parts := by
  refine ⟨fun sep brackets text => joinWith_splitFrom sep brackets {} text, ?_, ?_⟩
  · intro d sign brackets text part mem
    obtain ⟨p, ps, parts, first, others⟩ := splitFrom_whole sign brackets {} text
    rw [splitTopLevel, parts] at mem
    rw [splitTopLevel, splitFrom_eq_singleton_iff]
    rcases List.mem_cons.1 mem with rfl | mem
    · exact first
    · exact others part mem
  · intro brackets other parts filled closed
    exact splitTopLevel_joinWith (by decide) (by decide) (.of_not_mem (by decide) other) filled closed

/-- A call, a quoted text and nothing, each of which holds or might hold a comma. -/
def nestedParts : List (List Char) := ["f(a, b)".toList, "\"c,d\"".toList, []]

theorem cutting_inverts_joining_nested :
    ('=' ≠ '>' ∧ "a".toList ∈ splitTopLevel ['='] typeBrackets "a=b==c".toList) ∧
    (',' ∉ plainBrackets ∧ nestedParts ≠ [] ∧ ∀ part ∈ nestedParts,
      splitTopLevel [','] plainBrackets part = [part] ∧ (run plainBrackets {} part).Outermost) ∧
    splitTopLevel ['='] typeBrackets "a".toList = ["a".toList] ∧
    splitTopLevel [','] plainBrackets (joinWith [','] nestedParts) = nestedParts := by
  obtain ⟨-, again, back⟩ := cutting_inverts_joining
  have sign : '=' ≠ '>' := by decide
  have mem : "a".toList ∈ splitTopLevel ['='] typeBrackets "a=b==c".toList := by decide
  have other : ',' ∉ plainBrackets := by decide
  have filled : nestedParts ≠ [] := by decide
  have closed : ∀ part ∈ nestedParts,
      splitTopLevel [','] plainBrackets part = [part] ∧ (run plainBrackets {} part).Outermost := by
    intro part mem
    simp only [nestedParts, List.mem_cons, List.not_mem_nil, or_false] at mem
    rcases mem with rfl | rfl | rfl <;> exact ⟨by decide, by decide, by decide⟩
  exact ⟨⟨sign, mem⟩, ⟨other, filled, closed⟩, again '=' sign typeBrackets _ _ mem, back plainBrackets other _ filled closed⟩

end Drift.Source
