import Drift.Proofs.Recognizer.Allowed
import Drift.Proofs.Recognizer.Repeated
import Drift.Proofs.Source.Parts
import Drift.Source.JavaScript

namespace Drift.Source.JavaScript

open Recognizer

/-- The forms of a function: a declaration, an arrow function with a name, and a method. -/
inductive Form where
  | function | arrow | method
  deriving DecidableEq

namespace Form

def body : Form → List Char
  | function => ['\x7b']
  | arrow => "=> \x7b".toList
  | method => ['\x7b']

def close : Form → Recognizer Unit
  | function => do skip (optional do sign '\x7b'; remainder); atEnd
  | arrow => word "=>"
  | method => do sign '\x7b'; gap; atEnd

def Closes : Form → List Char → Prop
  | function, t => t = [] ∨ t.head? = some '\x7b'
  | arrow, t => "=>".toList <+: t
  | method, t => ∃ g, t = '\x7b' :: g ∧ ∀ c ∈ g, Text.isBlank c = true

/-- The start of a text within the parameters that is taken for the end of the form. A method has to end its line. -/
def Opens : Form → List Char → Prop
  | function, t => t.head? = some '\x7b'
  | arrow, t => "=>".toList <+: t
  | method, _ => False

variable {f : Form} {t e : List Char} {b : Option Char}

theorem closes_head (closes : f.Closes t) : ∀ c ∈ t.head?, c = '\x7b' ∨ c = '=' := by
  intro c mem
  cases f with
  | function =>
    rcases closes with rfl | brace
    · cases mem
    · rw [brace] at mem
      cases mem
      exact .inl rfl
  | arrow =>
    obtain ⟨u, rfl⟩ := closes
    cases mem
    exact .inr rfl
  | method =>
    obtain ⟨g, rfl, -⟩ := closes
    cases mem
    exact .inl rfl

theorem closes_head_visible (closes : f.Closes t) : ∀ c ∈ t.head?, Text.isBlank c = false := by
  intro c mem
  rcases closes_head closes c mem with rfl | rfl <;> decide

theorem closes_body (f : Form) : f.Closes f.body := by
  cases f with
  | function => exact .inr rfl
  | arrow => exact ⟨" \x7b".toList, rfl⟩
  | method => exact ⟨[], rfl, by simp⟩

theorem not_closes_paren : ¬ f.Closes (')' :: t) := by
  intro closes
  rcases closes_head closes ')' rfl with same | same <;> cases same

theorem opens_filled (opens : f.Opens e) : e ≠ [] := by
  rintro rfl
  cases f with
  | function => cases opens
  | arrow =>
    have none := List.prefix_nil.1 opens
    cases none
  | method => exact opens

/-- What closes the form in front of a parenthesis has opened the body already. -/
theorem closes_append_iff (filled : e ≠ []) : f.Closes (e ++ ')' :: t) ↔ f.Opens e := by
  obtain ⟨x, u, rfl⟩ := List.exists_cons_of_ne_nil filled
  cases f with
  | function => simp [Closes, Opens]
  | arrow =>
    constructor
    · exact Text.prefix_of_append_cons (by decide)
    · exact fun starts => starts.trans (List.prefix_append _ _)
  | method =>
    refine iff_of_false ?_ id
    rintro ⟨g, shape, blank⟩
    obtain ⟨rfl, rest⟩ := List.cons_eq_cons.1 shape
    have paren := blank ')' (by simp [← rest])
    exact absurd paren (by decide)

theorem close_yields (f : Form) : f.close.Yields fun c _ _ => f.Closes c.rest := by
  cases f with
  | function =>
    have brace := Yields.bind (Yields.sign '\x7b') fun _ => Yields.remainder
    refine (Yields.bind (.skip (.optional brace)) fun _ => Yields.atEnd).mono ?_
    rintro c _ _ ⟨-, c', ⟨-, ⟨-, -, -, c₁, brace, -⟩ | ⟨-, rfl⟩⟩, ended⟩
    · exact .inr (by rw [brace]; rfl)
    · exact .inl ended
  | arrow => exact (Yields.text "=>".toList).mono fun c _ c' read => ⟨c'.rest, read.symm⟩
  | method =>
    refine (Yields.bind (.sign '\x7b') fun _ => Yields.bind .gap fun _ => Yields.atEnd).mono ?_
    rintro c _ _ ⟨-, c₁, read, -, c₂, ⟨g, blanks, blank⟩, ended⟩
    exact ⟨g, by rw [read, blanks, ended, List.append_nil], blank⟩

theorem close_refuses {x : Char} (brace : x ≠ '\x7b') (equals : x ≠ '=') : f.close.Refuses ⟨b, x :: t⟩ := by
  refine .of_yields f.close_yields fun _ _ closes => ?_
  rcases closes_head closes x rfl with same | same
  · exact brace same
  · exact equals same

theorem close_reads (closes : f.Closes t) (b : Option Char) : ∃ c, f.close.Prefers ⟨b, t⟩ () c := by
  cases f with
  | function =>
    cases t with
    | nil => exact ⟨_, .after (.skip (.optional_none (.bind (.skip .char_nil)))) Reads.atEnd.prefers⟩
    | cons x t =>
      have same : x = '\x7b' := by simpa [Closes] using closes
      subst same
      exact ⟨_, .bind (.skip (.optional_some (Reads.bind .sign .remainder).prefers)) Reads.atEnd.prefers⟩
  | arrow =>
    obtain ⟨u, rfl⟩ := closes
    exact ⟨_, Reads.word.prefers⟩
  | method =>
    obtain ⟨g, rfl, blank⟩ := closes
    have gap : gap.Reads ⟨some '\x7b', g ++ []⟩ () ⟨g.getLast? <|> some '\x7b', []⟩ := .gap blank (by simp)
    rw [List.append_nil] at gap
    exact ⟨_, .after .sign (.after gap Reads.atEnd.prefers)⟩

end Form

def ending (f : Form) (visibility : Option String) (fn params : List Char) : Recognizer Declared := do
  let returns ← resultType
  gap
  f.close
  return { visibility, name := fn, parameters := params, result := returns }

def Plain (t : List Char) : Prop := ∀ c ∈ t, c ≠ '\x7b' ∧ c ≠ '='

def Fits (f : Form) (t : List Char) : Prop :=
  f.Closes (Text.trimLeftWhile Text.isBlank t) ∨
    ∃ y e, Text.trimLeftWhile Text.isBlank t = ':' :: (y ++ e) ∧ y ≠ [] ∧ Plain y ∧ f.Closes e

def isPlain (c : Char) : Bool := c != '\x7b' && c != '='

theorem plain_of_isPlain {t : List Char} (plain : ∀ c ∈ t, isPlain c = true) : Plain t := by
  intro c mem
  simpa [isPlain] using plain c mem

theorem plain_of_blank {t : List Char} (blank : ∀ c ∈ t, Text.isBlank c = true) : Plain t := fun c mem =>
  ⟨Text.ne_of_class (blank c mem) (by decide), Text.ne_of_class (blank c mem) (by decide)⟩

theorem ending_yields (f : Form) (visibility : Option String) (fn params : List Char) :
    (ending f visibility fn params).Yields fun c d _ => Fits f c.rest ∧ d.name = fn ∧ d.parameters = params := by
  have type := Yields.optional (Yields.bind .gap fun _ => Yields.bind (.sign ':') fun _ =>
    Yields.bind (.skip (.many Text.isBlank)) fun _ => Yields.fewest1 isPlain fun c =>
      c.all fun c => Text.isBlank c || c == '\x7b' || c == '=')
  refine (Yields.bind type fun r => .bind .gap fun _ => .bind f.close_yields fun _ => .pure _).mono ?_
  rintro c d _ ⟨r, c₁, read, -, c₂, ⟨g, blanks, blank⟩, -, -, closes, rfl, -⟩
  refine ⟨?_, rfl, rfl⟩
  have stop : ∀ c ∈ c₂.rest.head?, Text.isBlank c = false := Form.closes_head_visible closes
  rcases read with ⟨y, -, -, c₃, ⟨g', front, blank'⟩, -, c₄, colon, -, c₅, ⟨w, spaces, space⟩, written, filled, plain⟩ | ⟨-, rfl⟩
  · refine .inr ⟨w ++ (y ++ g), c₂.rest, ?_, by simp [filled], ?_, closes⟩
    · have left : Text.trimLeftWhile Text.isBlank (':' :: c₄.rest) = ':' :: c₄.rest :=
        Text.dropWhile_of_head (by rintro _ ⟨⟩; decide)
      rw [front, colon, Text.trimLeftWhile, List.dropWhile_append_of_pos blank', ← Text.trimLeftWhile, left, spaces, written,
        blanks]
      simp
    · exact List.forall_mem_append.2 ⟨plain_of_blank space, List.forall_mem_append.2 ⟨plain_of_isPlain plain, plain_of_blank blank⟩⟩
  · refine .inl ?_
    rw [blanks, Text.trimLeftWhile, List.dropWhile_append_of_pos blank, Text.dropWhile_of_head stop]
    exact closes

theorem ending_allows {f : Form} {t : List Char} (fits : Fits f t) (b : Option Char) (visibility : Option String)
    (fn params : List Char) : ((ending f visibility fn params).first ⟨b, t⟩).isSome = true := by
  obtain ⟨b', blanks⟩ := Reads.gap_trimmed (b := b) (t := t)
  rcases fits with closes | ⟨y, e, shape, filled, plain, closes⟩
  · obtain ⟨c, close⟩ := Form.close_reads closes b'
    have reads : (ending f visibility fn params).Allows ⟨b, t⟩
        { visibility, name := fn, parameters := params, result := none } c :=
      .bind .optional_none (.bind blanks.prefers.allows (.bind close.allows Reads.pure.prefers.allows))
    exact reads.first
  · rw [shape] at blanks
    have stops : e.head?.all (fun c => Text.isBlank c || c == '\x7b' || c == '=') = true := by
      rw [Option.all_eq_true]
      intro c head
      rcases Form.closes_head closes c head with rfl | rfl <;> decide
    have chars : ∀ c ∈ y, isPlain c = true := fun c mem => by simpa [isPlain] using plain c mem
    have type : resultType.Allows ⟨b, t⟩ (some y) ⟨y.getLast? <|> some ':', e⟩ :=
      .optional_some (.bind blanks.prefers.allows (.bind Reads.sign.prefers.allows
        (.bind (.bind (.many (w := []) (by simp)) Reads.pure.prefers.allows) (.fewest1 filled chars stops))))
    have gap : gap.Reads ⟨y.getLast? <|> some ':', [] ++ e⟩ () ⟨_, e⟩ := .gap (by simp) (Form.closes_head_visible closes)
    obtain ⟨c, close⟩ := Form.close_reads closes (([] : List Char).getLast? <|> (y.getLast? <|> some ':'))
    have reads : (ending f visibility fn params).Allows ⟨b, t⟩
        { visibility, name := fn, parameters := params, result := some y } c :=
      .bind type (.bind gap.prefers.allows (.bind close.allows Reads.pure.prefers.allows))
    exact reads.first

/-- What stands behind a parenthesis within the parameters is taken for the end of the form: it is its end, or a colon with a
type up to such an end or up to the end of the parameters. -/
def Ends (f : Form) (v : List Char) : Prop :=
  f.Opens (Text.trimLeftWhile Text.isBlank v) ∨
    ∃ y e, Text.trimLeftWhile Text.isBlank v = ':' :: (y ++ e) ∧ Plain y ∧ (e = [] ∨ y ≠ [] ∧ f.Opens e)

/-- Whether the form seems to end there does not depend on the result type. -/
theorem fits_iff_ends {f : Form} {v r : List Char} (plain : Plain r) :
    Fits f (v ++ ')' :: (r ++ ' ' :: f.body)) ↔ Ends f v := by
  rw [Fits, Text.trimLeft_append_visible (by decide), Ends]
  generalize Text.trimLeftWhile Text.isBlank v = w
  constructor
  · rintro (closes | ⟨y, e, shape, filled, chars, closes⟩)
    · by_cases empty : w = []
      · subst empty
        exact absurd closes Form.not_closes_paren
      · exact .inl ((Form.closes_append_iff empty).1 closes)
    · cases w with
      | nil => cases shape
      | cons x w =>
        obtain ⟨rfl, rest⟩ := List.cons_eq_cons.1 shape
        refine .inr ?_
        -- the type ends behind the parameters or within them
        rcases List.append_eq_append_iff.1 rest with ⟨z, rfl, -⟩ | ⟨z, rfl, behind⟩
        · exact ⟨w, [], by simp, fun c mem => chars c (by simp [mem]), .inl rfl⟩
        · refine ⟨y, z, rfl, chars, ?_⟩
          by_cases empty : z = []
          · exact .inl empty
          · rw [behind] at closes
            exact .inr ⟨filled, (Form.closes_append_iff empty).1 closes⟩
  · rintro (opens | ⟨y, e, rfl, chars, rfl | ⟨filled, opens⟩⟩)
    · exact .inl ((Form.closes_append_iff (Form.opens_filled opens)).2 opens)
    · refine .inr ⟨y ++ ')' :: (r ++ [' ']), f.body, by simp, by simp, ?_, f.closes_body⟩
      exact List.forall_mem_append.2 ⟨chars, List.forall_mem_cons.2 ⟨by decide, List.forall_mem_append.2 ⟨plain, by simp⟩⟩⟩
    · refine .inr ⟨y, e ++ ')' :: (r ++ ' ' :: f.body), by simp, filled, chars, ?_⟩
      exact (Form.closes_append_iff (Form.opens_filled opens)).2 opens

end Drift.Source.JavaScript
