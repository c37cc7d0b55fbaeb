import Drift.Proofs.Source.Literals

namespace Drift.Source

open Nesting

def pairs : List Char → List (Char × Char)
  | o :: c :: r => (o, c) :: pairs r
  | _ => []

/-- Every quote and every bracket of the text is closed in turn. Outside of all of them stand characters with the
property `p` only. -/
inductive Closed (brackets : List Char) : (Char → Prop) → List Char → Prop
  | nil {p : Char → Prop} : Closed brackets p []
  | char {p : Char → Prop} {c : Char} {t : List Char} :
    p c → isQuote c = false → c ∉ brackets → Closed brackets p t → Closed brackets p (c :: t)
  | quoted {p : Char → Prop} {l : Literal} {t : List Char} :
    l.Closes → Closed brackets p t → Closed brackets p (l.text ++ t)
  | group {p : Char → Prop} {o c : Char} {inner t : List Char} :
    (o, c) ∈ pairs brackets → Closed brackets (fun _ => True) inner → Closed brackets p t →
      Closed brackets p (o :: (inner ++ c :: t))

variable {sep brackets : List Char} {s : Nesting} {p q : Char → Prop} {c o : Char} {after : Option Char}
  {t u : List Char}

namespace Closed

theorem mono (h : Closed brackets p t) (weaker : ∀ c ∈ t, p c → q c) : Closed brackets q t := by
  induction h with
  | nil => exact .nil
  | char fits quote plain _ ih => exact .char (weaker _ (by simp) fits) quote plain (ih fun c mem => weaker c (by simp [mem]))
  | quoted closes _ ih => exact .quoted closes (ih fun c mem => weaker c (by simp [mem]))
  | group pair inner _ _ ih => exact .group pair inner (ih fun c mem => weaker c (by simp [mem]))

theorem append (left : Closed brackets p t) (right : Closed brackets p u) : Closed brackets p (t ++ u) := by
  induction left with
  | nil => exact right
  | char fits quote plain _ ih => exact .char fits quote plain (ih right)
  | quoted closes _ ih =>
    rw [List.append_assoc]
    exact .quoted closes (ih right)
  | group pair inner _ _ ih =>
    rw [List.cons_append, List.append_assoc, List.cons_append]
    exact .group pair inner (ih right)

theorem of_plain (plain : ∀ c ∈ t, p c ∧ isQuote c = false ∧ c ∉ brackets) : Closed brackets p t := by
  induction t with
  | nil => exact .nil
  | cons c t ih =>
    obtain ⟨⟨fits, quote, other⟩, rest⟩ := List.forall_mem_cons.1 plain
    exact .char fits quote other (ih rest)

theorem widen {wider : List Char} (h : Closed brackets p t) (more : ∀ x ∈ pairs brackets, x ∈ pairs wider)
    (none : ∀ c ∈ t, c ∈ wider → c ∈ brackets) : Closed wider p t := by
  induction h with
  | nil => exact .nil
  | char fits quote plain _ ih =>
    exact .char fits quote (fun mem => plain (none _ (by simp) mem)) (ih fun c mem => none c (by simp [mem]))
  | quoted closes _ ih => exact .quoted closes (ih fun c mem => none c (by simp [mem]))
  | group pair _ _ inside ih =>
    exact .group (more _ pair) (inside fun c mem => none c (by simp [mem])) (ih fun c mem => none c (by simp [mem]))

end Closed

def isShaft (c : Char) : Bool := c == '=' || c == '-'

theorem isQuote_of_isShaft (shaft : isShaft c = true) : isQuote c = false := by
  rw [isShaft, Bool.or_eq_true, beq_iff_eq, beq_iff_eq] at shaft
  rcases shaft with rfl | rfl <;> rfl

/-- Like a closed text, but where a `>` closes a bracket, it is part of an arrow behind an equals sign or a dash. -/
inductive Balanced (brackets : List Char) : (Char → Prop) → List Char → Prop
  | nil {p : Char → Prop} : Balanced brackets p []
  | char {p : Char → Prop} {c : Char} {t : List Char} :
    p c → isQuote c = false → c ∉ brackets → Balanced brackets p t → Balanced brackets p (c :: t)
  | arrow {p : Char → Prop} {c : Char} {t : List Char} :
    isShaft c = true → c ∉ brackets → '>' ∉ openers brackets → p c → p '>' → Balanced brackets p t →
      Balanced brackets p (c :: '>' :: t)
  | quoted {p : Char → Prop} {l : Literal} {t : List Char} :
    l.Closes → Balanced brackets p t → Balanced brackets p (l.text ++ t)
  | group {p : Char → Prop} {o c : Char} {inner t : List Char} :
    (o, c) ∈ pairs brackets → (c = '>' → inner.getLast?.any isShaft = false) →
      Balanced brackets (fun _ => True) inner → Balanced brackets p t → Balanced brackets p (o :: (inner ++ c :: t))

namespace Balanced

theorem append (left : Balanced brackets p t) (right : Balanced brackets p u) : Balanced brackets p (t ++ u) := by
  induction left with
  | nil => exact right
  | char fits quote plain _ ih => exact .char fits quote plain (ih right)
  | arrow shaft plain opener fits fits' _ ih => exact .arrow shaft plain opener fits fits' (ih right)
  | quoted closes _ ih =>
    rw [List.append_assoc]
    exact .quoted closes (ih right)
  | group pair arrow inner _ _ ih =>
    rw [List.cons_append, List.append_assoc, List.cons_append]
    exact .group pair arrow inner (ih right)

theorem of_plain (plain : ∀ c ∈ t, p c ∧ isQuote c = false ∧ c ∉ brackets) : Balanced brackets p t := by
  induction t with
  | nil => exact .nil
  | cons c t ih =>
    obtain ⟨⟨fits, quote, other⟩, rest⟩ := List.forall_mem_cons.1 plain
    exact .char fits quote other (ih rest)

theorem pair {o c : Char} (mem : (o, c) ∈ pairs brackets) (rest : Balanced brackets p t) :
    Balanced brackets p (o :: c :: t) := by
  rw [← List.nil_append (c :: t)]
  exact .group mem (fun _ => rfl) .nil rest

end Balanced

structure Paired (brackets : List Char) : Prop where
  quotes : ∀ c ∈ brackets, isQuote c = false
  opens : ∀ x ∈ pairs brackets, x.1 ∈ openers brackets
  closes : ∀ x ∈ pairs brackets, x.2 ∈ closers brackets ∧ x.2 ∉ openers brackets
  shafts : ∀ x ∈ pairs brackets, isShaft x.1 = false

theorem paired_plainBrackets : Paired plainBrackets := ⟨forall_of_all (by decide), by decide, by decide, by decide⟩

theorem paired_typeBrackets : Paired typeBrackets := ⟨forall_of_all (by decide), by decide, by decide, by decide⟩

theorem mem_of_mem_openers (mem : c ∈ openers brackets) : c ∈ brackets := mem_of_mem_alternate mem

theorem mem_of_mem_closers (mem : c ∈ closers brackets) : c ∈ brackets :=
  List.mem_of_mem_tail (mem_of_mem_alternate mem)

namespace Nesting

structure AtDepth (s : Nesting) (d : Nat) : Prop where
  quote : s.quote = none
  depth : s.depth = d

theorem AtDepth.start : AtDepth {} 0 := ⟨rfl, rfl⟩

theorem AtDepth.outermost (h : s.AtDepth 0) : s.Outermost := ⟨h.quote, h.depth⟩

variable {d : Nat}

theorem AtDepth.step_plain (h : s.AtDepth d) (quote : isQuote c = false) (plain : c ∉ brackets) :
    (s.step brackets c).AtDepth d := by
  have opener : c ∉ openers brackets := fun mem => plain (mem_of_mem_openers mem)
  have closer : c ∉ closers brackets := fun mem => plain (mem_of_mem_closers mem)
  constructor <;> simp [step, h.quote, h.depth, quote, opener, closer]

theorem AtDepth.step_open (h : s.AtDepth d) (paired : Paired brackets) (pair : (o, c) ∈ pairs brackets) :
    (s.step brackets o).AtDepth (d + 1) := by
  have opener := paired.opens _ pair
  have quote := paired.quotes o (mem_of_mem_openers opener)
  constructor <;> simp [step, h.quote, h.depth, quote, opener]

theorem AtDepth.step_close (h : s.AtDepth (d + 1)) (paired : Paired brackets) (pair : (o, c) ∈ pairs brackets)
    (arrow : s.endsArrow c = false) : (s.step brackets c).AtDepth d := by
  obtain ⟨closer, opener⟩ := paired.closes _ pair
  have quote := paired.quotes c (mem_of_mem_closers closer)
  constructor <;> simp [step, h.quote, h.depth, quote, opener, closer, arrow]

theorem AtDepth.step_arrow (h : s.AtDepth d) (opener : '>' ∉ openers brackets)
    (before : s.before.any isShaft = true) : (s.step brackets '>').AtDepth d := by
  have arrow : s.endsArrow '>' = true := by
    obtain ⟨x, shaft, behind⟩ := (Option.any_eq_true _ _).1 before
    rw [isShaft, Bool.or_eq_true, beq_iff_eq, beq_iff_eq] at behind
    rw [endsArrow, shaft]
    rcases behind with rfl | rfl <;> rfl
  have quote : isQuote '>' = false := rfl
  constructor <;> simp [step, h.quote, h.depth, quote, opener, arrow]

theorem run_before (t : List Char) : (run brackets s t).before = t.getLast?.or s.before := by
  rcases List.eq_nil_or_concat t with rfl | ⟨u, x, rfl⟩
  · rfl
  · rw [List.concat_eq_append, run_append, run_cons, run_nil, step_before, List.getLast?_concat]
    rfl

theorem AtDepth.run_literal {l : Literal} (h : s.AtDepth d) (closes : l.Closes) : (run brackets s l.text).AtDepth d := by
  rw [Literal.run_text h.quote, if_pos closes]
  exact ⟨rfl, h.depth⟩

theorem cuts_deep {f : Option Char} (h : s.AtDepth (d + 1)) : s.cuts sep brackets c f = false := by
  simp [cuts, h.depth]

theorem cuts_other {f : Option Char} (other : sep ≠ [c]) : s.cuts sep brackets c f = false := by
  simp [cuts, other]

theorem cuts_open {f : Option Char} (opener : o ∈ openers brackets) : s.cuts sep brackets o f = false := by
  simp [cuts, opener]

end Nesting

namespace Balanced

variable {d : Nat}

theorem not_endsArrow {inner : List Char} (arrow : c = '>' → inner.getLast?.any isShaft = false) (before : s.before = some o) (shaft : isShaft o = false) :
    (run brackets s inner).endsArrow c = false := by
  have last : (run brackets s inner).before = inner.getLast?.or (some o) := by rw [run_before, before]
  rw [endsArrow, last]
  by_cases angle : c = '>'
  · have other := arrow angle
    cases ends : inner.getLast? with
    | none =>
      simp only [isShaft, Bool.or_eq_false_iff, beq_eq_false_iff_ne] at shaft
      simp [shaft]
    | some x =>
      rw [ends, Option.any_some] at other
      simp only [isShaft, Bool.or_eq_false_iff, beq_eq_false_iff_ne] at other
      simp [other]
  · simp [angle]

theorem run_atDepth (h : Balanced brackets p t) (paired : Paired brackets) (start : s.AtDepth d) :
    (run brackets s t).AtDepth d := by
  induction h generalizing s d with
  | nil => exact start
  | char _ quote plain _ ih => exact ih (start.step_plain quote plain)
  | @arrow p c t shaft plain opener _ _ _ ih =>
    have behind := start.step_plain (isQuote_of_isShaft shaft) plain
    rw [run_cons, run_cons]
    refine ih (behind.step_arrow opener ?_)
    rw [step_before]
    exact shaft
  | quoted closes _ ih =>
    rw [run_append]
    exact ih (start.run_literal closes)
  | @group p o c inner t pair arrow _ _ inside ih =>
    -- the inner text is read one bracket deeper
    have within := inside (start.step_open paired pair)
    rw [run_cons, run_append, run_cons]
    exact ih (within.step_close paired pair (not_endsArrow arrow step_before (paired.shafts _ pair)))

/-- A balanced text is cut nowhere at what stands only within its quotes and brackets. -/
theorem whole (h : Balanced brackets p t) (paired : Paired brackets) (start : s.AtDepth d)
    (other : d = 0 → ∀ c, p c → sep ≠ [c]) : Whole sep brackets after s t := by
  have passed : ∀ {s : Nesting} {d : Nat} {p : Char → Prop} {c : Char} {f : Option Char}, s.AtDepth d → p c →
      (d = 0 → ∀ c, p c → sep ≠ [c]) → s.cuts sep brackets c f = false := by
    intro s d p c f start fits other
    cases d with
    | zero => exact cuts_other (other rfl c fits)
    | succ d => exact cuts_deep start
  induction h generalizing s d after with
  | nil => trivial
  | char fits quote plain _ ih => exact ⟨passed start fits other, ih (start.step_plain quote plain) other⟩
  | @arrow p c t shaft plain opener fits fits' _ ih =>
    have behind := start.step_plain (isQuote_of_isShaft shaft) plain
    refine ⟨passed start fits other, passed behind fits' other, ih (behind.step_arrow opener ?_) other⟩
    rw [step_before]
    exact shaft
  | quoted closes _ ih =>
    rw [whole_append]
    exact ⟨Literal.whole_text start.quote, ih (start.run_literal closes) other⟩
  | @group p o c inner t pair arrow bounded _ inside ih =>
    have opened := start.step_open paired pair
    have within := bounded.run_atDepth paired opened
    have last : (run brackets (s.step brackets o) inner).endsArrow c = false :=
      not_endsArrow arrow step_before (paired.shafts _ pair)
    refine ⟨cuts_open (paired.opens _ pair), whole_append.2 ⟨?_, cuts_deep within, ?_⟩⟩
    · exact inside opened (by simp)
    · exact ih (within.step_close paired pair last) other

end Balanced

namespace Closed

variable {d : Nat}

/-- Where no `>` closes anything there are no arrows to be told apart. -/
theorem balanced (h : Closed brackets p t) (paired : Paired brackets) (arrow : ∀ c ∈ t, c ∈ closers brackets → c ≠ '>') :
    Balanced brackets p t := by
  induction h with
  | nil => exact .nil
  | char fits quote plain _ ih => exact .char fits quote plain (ih fun c mem => arrow c (by simp [mem]))
  | quoted closes _ ih => exact .quoted closes (ih fun c mem => arrow c (by simp [mem]))
  | @group p o c inner t pair _ _ inside ih =>
    have angle : c ≠ '>' := arrow c (by simp) (paired.closes _ pair).1
    exact .group pair (fun same => absurd same angle) (inside fun c mem => arrow c (by simp [mem]))
      (ih fun c mem => arrow c (by simp [mem]))

/-- A closed text is read to the depth where its reading began. A `>` that closes might be part of an arrow. -/
theorem run_atDepth (h : Closed brackets p t) (paired : Paired brackets) (arrow : ∀ c ∈ t, c ∈ closers brackets → c ≠ '>')
    (start : s.AtDepth d) : (run brackets s t).AtDepth d :=
  (h.balanced paired arrow).run_atDepth paired start

/-- A closed text is cut nowhere at what stands only within its quotes and brackets. -/
theorem whole (h : Closed brackets p t) (paired : Paired brackets) (arrow : ∀ c ∈ t, c ∈ closers brackets → c ≠ '>')
    (start : s.AtDepth d) (other : d = 0 → ∀ c, p c → sep ≠ [c]) : Whole sep brackets after s t :=
  (h.balanced paired arrow).whole paired start other

end Closed

end Drift.Source
