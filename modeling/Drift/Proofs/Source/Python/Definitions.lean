import Drift.Proofs.Recognizer.Preferred
import Drift.Proofs.Source.Parts
import Drift.Proofs.Source.Scan
import Drift.Source.Python

namespace Drift.Source.Python

open Recognizer Nesting

structure TypeHint where
  text : List Char
  part : IsPart text
  plain : ∀ c ∈ text, c ≠ '=' ∧ c ≠ '<' ∧ c ≠ '>'

structure Default where
  text : List Char
  part : IsPart text

structure Named where
  stars : Nat := 0
  name : Text.Run Text.isWord
  other : String.ofList name.text ∉ skippedParameters
  hint : Option TypeHint := none
  default : Option Default := none

namespace Named

def hintText (p : Named) : List Char :=
  match p.hint with
  | none => []
  | some a => ": ".toList ++ a.text

def front (p : Named) : List Char := List.replicate p.stars '*' ++ (p.name.text ++ p.hintText)

def defaultText (p : Named) : List Char :=
  match p.default with
  | none => []
  | some d => " = ".toList ++ d.text

def text (p : Named) : List Char := p.front ++ p.defaultText

def declared (p : Named) : Signature.Parameter where
  name := String.ofList p.name.text
  type := p.hint.elim "Any" fun a => String.ofList a.text

variable (p : Named)

theorem forall_front {p : Named} {q : Char → Prop} (star : q '*') (word : ∀ c, Text.isWord c = true → q c)
    (hint : ∀ a ∈ p.hint, ∀ c ∈ ": ".toList ++ a.text, q c) : ∀ c ∈ p.front, q c := by
  refine List.forall_mem_append.2 ⟨fun c mem => ?_, List.forall_mem_append.2 ⟨fun c mem => word c (p.name.fits c mem), ?_⟩⟩
  · rwa [(List.mem_replicate.1 mem).2]
  · rw [hintText]
    cases written : p.hint with
    | none => simp
    | some a => exact hint a written

/-- Neither an equals sign nor an angle bracket stands in front of the default. -/
theorem plain_front : ∀ c ∈ p.front, c ≠ '=' ∧ c ≠ '<' ∧ c ≠ '>' := by
  have word : ∀ c, Text.isWord c = true → c ≠ '=' ∧ c ≠ '<' ∧ c ≠ '>' := fun c fits =>
    ⟨Text.ne_of_class fits (by decide), Text.ne_of_class fits (by decide), Text.ne_of_class fits (by decide)⟩
  exact forall_front (by decide) word fun a _ => List.forall_mem_append.2 ⟨forall_of_all (by decide), a.plain⟩

theorem whole_front : ∀ c ∈ p.front, Text.isLineBreak c = false :=
  forall_front (by decide) (fun _ => Text.isLineBreak_of_isWord) fun a _ =>
    List.forall_mem_append.2 ⟨forall_of_all (by decide), a.part.whole⟩

theorem closed_front : Closed plainBrackets (· ≠ ',') p.front := by
  have stars : Closed plainBrackets (· ≠ ',') (List.replicate p.stars '*') := by
    refine .of_plain fun c mem => ?_
    rw [(List.mem_replicate.1 mem).2]
    decide
  have hint : Closed plainBrackets (· ≠ ',') p.hintText := by
    rw [hintText]
    cases p.hint with
    | none => exact .nil
    | some a => exact .append (.of_plain (forall_of_all (by decide))) a.part.closed
  exact stars.append (.append (closed_word p.name.fits) hint)

/-- Read with the angle brackets, and with the equals sign for a separator, the front stays in one piece. -/
theorem front_whole (after : Option Char) :
    Whole ['='] typeBrackets after {} p.front ∧ (run typeBrackets {} p.front).Outermost := by
  have closed : Closed typeBrackets (· ≠ '=') p.front := by
    refine (p.closed_front.mono fun c mem _ => (p.plain_front c mem).1).widen (by decide) fun c mem bracket => ?_
    have angle : ∀ x ∈ typeBrackets, x ∈ plainBrackets ∨ x = '<' ∨ x = '>' := forall_of_all (by decide)
    have := p.plain_front c mem
    rcases angle c bracket with plain | rfl | rfl
    · exact plain
    · simp at this
    · simp at this
  have arrow : ∀ c ∈ p.front, c ∈ closers typeBrackets → c ≠ '>' := fun c mem _ => (p.plain_front c mem).2.2
  refine ⟨closed.whole paired_typeBrackets arrow .start ?_, (closed.run_atDepth paired_typeBrackets arrow .start).outermost⟩
  exact fun _ c other same => other (List.head_eq_of_cons_eq same).symm

theorem trim_front : Text.trim p.front = p.front := by
  have word : ∀ c ∈ p.name.text, Text.isBlank c = false := fun c mem => Text.isBlank_of_isWord (p.name.fits c mem)
  apply Text.trim_eq_self
  · intro c mem
    obtain ⟨x, w, name⟩ := List.exists_cons_of_ne_nil p.name.nonempty
    rw [front, name] at mem
    cases stars : p.stars with
    | zero =>
      rw [stars] at mem
      cases mem
      exact word c (by simp [name])
    | succ n =>
      rw [stars] at mem
      cases mem
      decide
  · intro c mem
    cases hint : p.hint with
    | none =>
      rw [front, hintText, hint] at mem
      simp only [List.append_nil, List.getLast?_append, List.getLast?_eq_some_getLast p.name.nonempty,
        Option.some_or, Option.mem_some_iff] at mem
      exact word c (mem ▸ List.getLast_mem p.name.nonempty)
    | some a =>
      rw [front, hintText, hint] at mem
      have last : a.text.getLast? = some c := by
        simpa [List.getLast?_append, List.getLast?_cons, List.getLast?_eq_some_getLast a.part.filled] using mem
      exact (Text.trim_eq_self_iff.1 a.part.trimmed).2 c last

theorem isPart : IsPart p.text := by
  have filled : p.front ≠ [] := by simp [front, p.name.nonempty]
  obtain ⟨head, -⟩ := Text.trim_eq_self_iff.1 p.trim_front
  rw [text, defaultText]
  cases p.default with
  | none =>
    rw [List.append_nil]
    exact ⟨filled, p.trim_front, p.closed_front, p.whole_front⟩
  | some d =>
    refine ⟨by simp [filled], ?_, p.closed_front.append (.append (.of_plain (forall_of_all (by decide))) d.part.closed), ?_⟩
    · obtain ⟨x, w, shape⟩ := List.exists_cons_of_ne_nil filled
      rw [← List.append_assoc, shape]
      exact Text.trim_ending (head x (by rw [shape]; rfl)) d.part.filled (Text.trim_eq_self_iff.1 d.part.trimmed).2
    · exact List.forall_mem_append.2 ⟨p.whole_front, List.forall_mem_append.2 ⟨forall_of_all (by decide), d.part.whole⟩⟩

theorem stripDefault_text : stripDefault p.text = p.front := by
  rw [stripDefault, text, defaultText]
  cases p.default with
  | none =>
    have single : splitTopLevel ['='] typeBrackets p.front = [p.front] :=
      splitFrom_eq_singleton_iff.2 (p.front_whole none).1
    rw [List.append_nil, single]
    exact p.trim_front
  | some d =>
    obtain ⟨whole, outer⟩ := p.front_whole (some ' ')
    -- with the blank in front of it and the one behind, the equals sign is no part of an operator
    have place : (run typeBrackets {} (p.front ++ [' '])).Outermost ∧
        (run typeBrackets {} (p.front ++ [' '])).before = some ' ' := by
      rw [run_append, run_cons, run_nil]
      exact ⟨(AtDepth.step_plain ⟨outer.quote, outer.depth⟩ (by decide) (by decide)).outermost, step_before⟩
    have cut : (run typeBrackets {} (p.front ++ [' '])).cuts ['='] typeBrackets '=' (' ' :: d.text).head? = true := by
      refine (cuts_iff (by decide)).2 ⟨rfl, place.1, .of_not_mem (by decide) (by decide), fun _ => ?_⟩
      simp [isOperator, place.2]
    have before : Whole ['='] typeBrackets (some '=') {} (p.front ++ [' ']) :=
      whole_append.2 ⟨whole, cuts_other (by decide), trivial⟩
    have shape : p.front ++ (" = ".toList ++ d.text) = (p.front ++ [' ']) ++ '=' :: (' ' :: d.text) := by simp
    rw [shape, splitTopLevel, splitFrom_append before cut, List.headD_cons, Text.trim_append_blank Text.isBlank_space]
    exact p.trim_front

theorem trimLeft_front : Text.trimLeftWhile (· == '*') p.front = p.name.text ++ p.hintText := by
  obtain ⟨x, w, name⟩ := List.exists_cons_of_ne_nil p.name.nonempty
  have first : (x == '*') = false :=
    beq_eq_false_iff_ne.2 (Text.ne_of_class (p.name.fits x (by simp [name])) (by decide))
  rw [front, Text.trimLeftWhile, List.dropWhile_append_of_pos (by simp), name, List.cons_append, List.dropWhile_cons, first]
  rfl

theorem front_kept : String.ofList p.front ∉ skippedParameters := by
  intro mem
  obtain ⟨mark, known, same⟩ : ∃ mark ∈ skippedParameters, mark.toList = p.front :=
    ⟨_, mem, String.toList_ofList⟩
  have shape := p.trimLeft_front
  rw [← same] at shape
  cases written : p.hint with
  | some a =>
    have colon : ∀ m ∈ skippedParameters, ':' ∉ Text.trimLeftWhile (· == '*') m.toList := by decide
    apply colon mark known
    rw [shape, hintText, written]
    simp
  | none =>
    rw [hintText, written, List.append_nil] at shape
    have kinds : ∀ m ∈ skippedParameters,
        Text.trimLeftWhile (· == '*') m.toList = m.toList ∨ Text.trimLeftWhile (· == '*') m.toList = [] := by decide
    rcases kinds mark known with plain | empty
    · apply p.other
      rw [← shape, plain, String.ofList_toList]
      exact known
    · exact p.name.nonempty (shape.symm.trans empty)

theorem parameterOf_text : parameterOf p.text = some p.declared := by
  -- in front of the colon stands what the parameter would be without its type hint
  let alone : Named := { p with hint := none }
  have trimmed : Text.trim alone.front = alone.front := alone.trim_front
  have name : Text.trimLeftWhile (· == '*') alone.front = p.name.text := by
    rw [alone.trimLeft_front]
    simp [alone, hintText]
  have colon : ':' ∉ alone.front := by
    intro mem
    have word : ∀ c, Text.isWord c = true → c ≠ ':' := fun c fits => Text.ne_of_class fits (by decide)
    exact forall_front (p := alone) (by decide) word (by simp [alone]) ':' mem rfl
  have kept : skippedParameters.contains (String.ofList p.front) = false := by simpa using p.front_kept
  rw [parameterOf, p.stripDefault_text, kept, declared]
  cases written : p.hint with
  | none =>
    have same : p.front = alone.front := by simp [front, hintText, alone, written]
    have uncut : Text.cutAtFirst? ':' p.front = none := by
      rw [Option.eq_none_iff_forall_ne_some]
      rintro ⟨left, right⟩ cut
      rw [same, Text.cutAtFirst_eq_some_iff] at cut
      exact colon (by simp [cut.1])
    rw [uncut]
    simp [same, trimmed, name, p.name.nonempty, parameter]
  | some a =>
    have cut : Text.cutAtFirst? ':' p.front = some (alone.front, ' ' :: a.text) := by
      refine Text.cutAtFirst_eq_some_iff.2 ⟨?_, colon⟩
      simp [front, hintText, alone, written]
    have type : Text.trim (' ' :: a.text) = a.text := (Text.trim_blank_append Text.isBlank_space).trans a.part.trimmed
    rw [cut]
    simp [trimmed, name, type, p.name.nonempty, parameter]

end Named

inductive Parameter where
  | mark (word : String) (known : word ∈ skippedParameters)
  | named (p : Named)

namespace Parameter

def text : Parameter → List Char
  | mark word _ => word.toList
  | named p => p.text

def declared? : Parameter → Option Signature.Parameter
  | mark _ _ => none
  | named p => some p.declared

theorem isPart (x : Parameter) : IsPart x.text := by
  cases x with
  | mark word known =>
    have shape : ∀ w ∈ skippedParameters, w.toList ≠ [] ∧ Text.trim w.toList = w.toList := by decide
    have chars : ∀ w ∈ skippedParameters, (w.toList.all fun c =>
        decide ((c ≠ ',' ∧ isQuote c = false ∧ c ∉ plainBrackets) ∧ Text.isLineBreak c = false)) = true := by decide
    obtain ⟨filled, trimmed⟩ := shape word known
    have plain := forall_of_all (chars word known)
    exact ⟨filled, trimmed, .of_plain fun c mem => (plain c mem).1, fun c mem => (plain c mem).2⟩
  | named p => exact p.isPart

theorem parameterOf_text (x : Parameter) : parameterOf x.text = x.declared? := by
  cases x with
  | mark word known =>
    have skipped : ∀ w ∈ skippedParameters, parameterOf w.toList = none := by decide
    exact skipped word known
  | named p => exact p.parameterOf_text

end Parameter

theorem parameters_listed (xs : List (Padded Parameter)) :
    parameters (listed Parameter.text xs) = xs.filterMap (·.item.declared?) := by
  rw [parameters, splitParams_listed fun x _ => x.item.isPart, List.filterMap_map]
  congr 1
  funext x
  exact x.item.parameterOf_text

/-- What stands behind the parameters of a definition: a colon or an arrow, with or without blanks in front. -/
def Follows (t : List Char) : Prop := ∃ sign ∈ [":", "->"], sign.toList <+: Text.trimLeftWhile Text.isBlank t

instance (t : List Char) : Decidable (Follows t) := inferInstanceAs (Decidable (∃ sign ∈ _, _))

/-- What follows a text follows it without another parenthesis behind. -/
theorem follows_of_append {t u : List Char} (follows : Follows (t ++ ')' :: u)) : Follows t := by
  obtain ⟨sign, mem, starts⟩ := follows
  rw [Text.trimLeft_append_visible (by decide)] at starts
  have other : ∀ s ∈ [":", "->"], ')' ∉ s.toList := by decide
  exact ⟨sign, mem, Text.prefix_of_append_cons (other sign mem) starts⟩

def Unclosed (t : List Char) : Prop := ∀ u v, t = u ++ ')' :: v → ¬ Follows v

theorem unclosed_cons {c : Char} {t : List Char} : Unclosed (c :: t) ↔ (c = ')' → ¬ Follows t) ∧ Unclosed t := by
  constructor
  · exact fun all => ⟨fun same => all [] t (by rw [same]; rfl), fun u v shape => all (c :: u) v (by rw [shape]; rfl)⟩
  · rintro ⟨here, later⟩ u v shape
    cases u with
    | nil =>
      cases shape
      exact here rfl
    | cons d u =>
      cases shape
      exact later u v rfl

instance decidableUnclosed : (t : List Char) → Decidable (Unclosed t)
  | [] => isTrue (by simp [Unclosed])
  | _ :: t =>
    have := decidableUnclosed t
    decidable_of_iff _ unclosed_cons.symm

structure ResultType where
  text : List Char
  filled : text ≠ []
  trimmed : Text.trim text = text
  colon : ':' ∉ text
  whole : ∀ c ∈ text, Text.isLineBreak c = false

structure Definition where
  asynchronous : Bool := false
  name : Text.Run Text.isWord
  parameters : List (Padded Parameter)
  result : Option ResultType := none

namespace Definition

variable (d : Definition)

def parameterText : List Char := listed Parameter.text d.parameters

def resultText : List Char :=
  match d.result with
  | none => []
  | some r => " -> ".toList ++ r.text

def behindAsync : List Char :=
  "def ".toList ++ (d.name.text ++ '(' :: (d.parameterText ++ ')' :: (d.resultText ++ [':'])))

def asyncText : List Char :=
  match d.asynchronous with
  | true => "async ".toList
  | false => []

def line : List Char := d.asyncText ++ d.behindAsync

def signature (file : String) : Signature where
  name := String.ofList d.name.text
  parameters := d.parameters.filterMap (·.item.declared?)
  results := (d.result.map fun r => Source.result r.text []).toList
  file
  line := 1
  visibility :=
    if "_".toList <+: d.name.text ∧ ¬ ("__".toList <+: d.name.text ∧ "__".toList <:+ d.name.text) then .priv else .pub

end Definition

def ending (fn params : List Char) : Recognizer (List Char × List Char × Option (List Char)) := do
  gap
  let returns ← optional do
    word "->"
    blanks
    fewest1 (fun _ => true) fun c => c.any fun c => Text.isBlank c || c == ':'
  gap
  sign ':'
  return (fn, params, returns)

theorem ending_refuses {b : Option Char} {t fn params : List Char} (other : ¬ Follows t) :
    (ending fn params).Refuses ⟨b, t⟩ := by
  have head : ∀ c ∈ (Text.trimLeftWhile Text.isBlank t).head?, Text.isBlank c = false := Text.head_trimLeft
  have arrow : ¬ "->".toList <+: Text.trimLeftWhile Text.isBlank t := fun starts => other ⟨"->", by simp, starts⟩
  have colon : ∀ c ∈ (Text.trimLeftWhile Text.isBlank t).head?, c ≠ ':' := by
    rintro c mem rfl
    obtain ⟨w, shape⟩ := List.head?_eq_some_iff.1 mem
    exact other ⟨":", by simp, w, by simp [shape]⟩
  obtain ⟨b', blanks⟩ := Reads.gap_trimmed (b := b) (t := t)
  generalize Text.trimLeftWhile Text.isBlank t = w at *
  apply Refuses.after blanks
  apply Refuses.after (.optional_none (.bind (.text arrow)))
  apply Refuses.after (.gap (w := []) (by simp) head)
  apply Refuses.bind
  cases w with
  | nil => exact .skip .char_nil
  | cons x w => exact .sign (colon x rfl)

theorem ending_resultText (d : Definition) (b : Option Char) (fn params : List Char) :
    ∃ c', (ending fn params).Prefers ⟨b, d.resultText ++ [':']⟩ (fn, params, d.result.map (·.text)) c' := by
  rw [Definition.resultText]
  cases d.result with
  | none =>
    refine ⟨⟨some ':', []⟩, ?_⟩
    apply Prefers.after (.gap_none (by decide))
    apply Prefers.after (.optional_none (.bind (.text (by decide))))
    apply Prefers.after (.gap_none (by decide))
    apply Prefers.after .sign
    exact Reads.pure.prefers
  | some r =>
    obtain ⟨x, w, shape⟩ := List.exists_cons_of_ne_nil r.filled
    obtain ⟨head, last⟩ := Text.trim_eq_self_iff.1 r.trimmed
    have first : Text.isBlank x = false := head x (by rw [shape]; rfl)
    refine ⟨⟨some ':', []⟩, ?_⟩
    simp only [Option.map_some, shape]
    apply Prefers.after (.gap_space (x := '-') (by decide))
    apply Prefers.bind_optional_some
    apply Prefers.assoc
    apply Prefers.after .word
    apply Prefers.assoc
    apply Prefers.bind (.skip (.many (w := [' ']) Text.isBlank_space (by simpa using first)))
    apply Prefers.assoc
    apply Prefers.after (.char rfl)
    apply Prefers.assoc
    apply Prefers.bind_fewest (w := w) (t := [':']) (fun _ _ => rfl) rfl
    · -- a type without a blank at its end has more of itself behind each shorter one
      intro u y v split _
      have front : (x :: u) ++ y :: v = r.text := by rw [shape, split, List.cons_append]
      rw [← front] at last
      obtain ⟨z, rest, behind, within⟩ := Text.exists_trimLeft (by simp) last
      have colon : z ≠ ':' := by
        rintro rfl
        exact r.colon (by rw [← front, List.mem_append]; exact .inr within)
      obtain ⟨b', blanks⟩ := Reads.gap_trimmed (b := u.getLast? <|> some x) (t := (y :: v) ++ [':'])
      rw [Text.trimLeft_append, behind, if_neg (List.cons_ne_nil z rest)] at blanks
      apply Refuses.after .pure
      apply Refuses.after blanks
      exact .bind (.sign colon)
    · apply Prefers.after .pure
      apply Prefers.after (.gap_none (by decide))
      apply Prefers.after .sign
      exact Reads.pure.prefers

theorem definition_line (d : Definition) (unclosed : Unclosed d.parameterText) :
    definition.atStart d.line = some (d.name.text, d.parameterText, d.result.map (·.text)) := by
  have first : ∀ t, ∀ c ∈ (d.name.text ++ t).head?, Text.isBlank c = false := by
    intro t c mem
    obtain ⟨x, w, name⟩ := List.exists_cons_of_ne_nil d.name.nonempty
    rw [name] at mem
    cases mem
    exact Text.isBlank_of_isWord (d.name.fits c (by simp [name]))
  obtain ⟨b, start⟩ : ∃ b, (skip (optional (keyword "async"))).Prefers (.start d.line) () ⟨b, d.behindAsync⟩ := by
    rw [Definition.line, Definition.asyncText]
    cases d.asynchronous with
    | true => exact ⟨some ' ', .skip (.optional_some (Reads.bind .word (.gap1_space (by decide))).prefers)⟩
    | false => exact ⟨none, (Reads.skip (.optional_none (.bind (.text (by simp [Definition.behindAsync]))))).prefers⟩
  obtain ⟨c', ends⟩ := ending_resultText d (some ')') d.name.text d.parameterText
  apply Prefers.atStart
  apply Prefers.bind start
  rw [Definition.behindAsync]
  apply Prefers.after (.bind (.word (w := "def")) (.gap1 (w := [' ']) (by simp) Text.isBlank_space (first _)))
  apply Prefers.after (.run1_append d.name.nonempty d.name.fits (by simp; decide))
  apply Prefers.after (.gap_none (by decide))
  apply Prefers.after (.skip (.optional_none (.bind (.sign (by decide)))))
  apply Prefers.after .sign
  -- a parenthesis among the parameters does not end them: what stands behind it is no ending
  refine Prefers.bind_upTo (f := ending d.name.text) (fun u v shape => ?_) ends
  exact ending_refuses fun follows => unclosed u v shape (follows_of_append follows)

theorem isHidden_iff {fn : List Char} :
    isHidden fn = true ↔ "_".toList <+: fn ∧ ¬ ("__".toList <+: fn ∧ "__".toList <:+ fn) := by
  simp only [isHidden, Bool.and_eq_true, Bool.not_eq_true', ← Bool.not_eq_true, List.isPrefixOf_iff_prefix,
    List.isSuffixOf_iff_suffix]

theorem whole_line (d : Definition) : ∀ c ∈ d.line, Text.isLineBreak c = false := by
  have async : ∀ c ∈ d.asyncText, Text.isLineBreak c = false := by
    rw [Definition.asyncText]
    cases d.asynchronous <;> exact forall_of_all (by decide)
  have name : ∀ c ∈ d.name.text, Text.isLineBreak c = false := fun c mem =>
    Text.isLineBreak_of_isWord (d.name.fits c mem)
  have parameters : ∀ c ∈ d.parameterText, Text.isLineBreak c = false := whole_listed fun x _ => x.item.isPart
  have result : ∀ c ∈ d.resultText, Text.isLineBreak c = false := by
    rw [Definition.resultText]
    cases d.result with
    | none => simp
    | some r => exact List.forall_mem_append.2 ⟨forall_of_all (by decide), r.whole⟩
  simp only [Definition.line, Definition.behindAsync, List.forall_mem_append, List.forall_mem_cons]
  exact ⟨async, forall_of_all (by decide), name, by decide, parameters, by decide, result, by decide, by simp⟩

/-- On the line of a definition one signature is read, with what the definition says: each parameter with its type hint,
in order, the result, and whether the name hides it. -/
theorem signatures_definition (file : String) (d : Definition) (unclosed : Unclosed d.parameterText) :
    signatures file d.line = [d.signature file] := by
  have filled : d.line ≠ [] := by simp [Definition.line, Definition.behindAsync]
  have trimmed : Text.trim d.line = d.line := by
    apply Text.trim_eq_self
    · rw [Definition.line, Definition.asyncText]
      cases d.asynchronous
      all_goals
        rintro _ ⟨⟩
        decide
    · rw [Definition.line, Definition.behindAsync]
      simp [List.getLast?_append, List.getLast?_cons]
      decide
  have read : signatures file d.line = lineSignatures file 1 d.line := eachLine_line filled (whole_line d)
  rw [read, lineSignatures, trimmed, definition_line d unclosed]
  simp only [Definition.signature, Definition.parameterText, parameters_listed, ← isHidden_iff]
  cases d.result with
  | none => rfl
  | some r => simp [r.trimmed]

def strHint : TypeHint where
  text := "str".toList
  part :=
    { filled := by decide
      trimmed := by decide
      closed := .of_plain (forall_of_all (by decide))
      whole := forall_of_all (by decide) }
  plain := forall_of_all (by decide)

def callDefault : Default where
  text := "max".toList ++ '(' :: ("1, 2".toList ++ ')' :: [])
  part :=
    { filled := by decide
      trimmed := by decide
      closed := .append (.of_plain (forall_of_all (by decide))) (.group (by decide) (.of_plain (forall_of_all (by decide))) .nil)
      whole := forall_of_all (by decide) }

def findDefinition : Definition where
  asynchronous := true
  name := .of "_find".toList (by decide)
  parameters :=
    [{ item := .mark "self" (by decide) },
      { front := [' ']
        item := .named
          { stars := 1, name := .of "keys".toList (by decide), other := by decide, hint := some strHint }
        frontSpace := isSpace_space },
      { front := [' ']
        item := .named { name := .of "limit".toList (by decide), other := by decide, default := some callDefault }
        frontSpace := isSpace_space }]
  result := some ⟨"list".toList, by decide, by decide, by decide, forall_of_all (by decide)⟩

theorem signatures_definition_find :
    Unclosed findDefinition.parameterText ∧
      signatures "store.py" "async def _find(self, *keys: str, limit = max(1, 2)) -> list:".toList =
      [{ name := "_find"
         parameters := [⟨"keys", "str"⟩, ⟨"limit", "Any"⟩]
         results := [⟨"list", ""⟩]
         file := "store.py"
         line := 1
         visibility := .priv }] := by
  have unclosed : Unclosed findDefinition.parameterText := by decide
  exact ⟨unclosed, signatures_definition "store.py" findDefinition unclosed⟩

end Drift.Source.Python
