import Drift.Proofs.Source.JavaScript.Endings
import Drift.Proofs.Source.Scan

namespace Drift.Source.JavaScript

open Recognizer

/-- A result type as the forms are read for it: what would start the body is no part of it. -/
structure ResultType where
  text : List Char
  filled : text ≠ []
  trimmed : Text.trim text = text
  plain : Plain text
  whole : ∀ c ∈ text, Text.isLineBreak c = false

structure Declaration where
  name : DollarName
  parameters : List Char
  whole : ∀ c ∈ parameters, Text.isLineBreak c = false
  result : Option (Padded ResultType) := none

namespace Declaration

variable (d : Declaration)

def resultText : List Char :=
  match d.result with
  | none => []
  | some r => ':' :: r.text ResultType.text

def behindName (f : Form) : List Char := '(' :: (d.parameters ++ ')' :: (d.resultText ++ ' ' :: f.body))

def naming : Form → List Char
  | .function => "function".toList ++ ' ' :: d.name.text
  | .arrow => "const".toList ++ ' ' :: (d.name.text ++ " = ".toList)
  | .method => d.name.text

def line (f : Form) : List Char := d.naming f ++ d.behindName f

def declared : Declared where
  name := d.name.text
  parameters := d.parameters
  result := d.result.map (·.item.text)

def signature (file : String) : Signature where
  name := String.ofList d.name.text
  parameters := JavaScript.parameters d.parameters
  results := d.result.toList.map fun r => Source.result r.item.text []
  file
  line := 1
  visibility := .pub

end Declaration

theorem plain_resultText (d : Declaration) : Plain d.resultText := by
  have space : ∀ {t : List Char}, (∀ c ∈ t, isSpace c = true) → Plain t := fun spaces =>
    plain_of_blank fun c mem => isBlank_of_isSpace (spaces c mem)
  rw [Declaration.resultText]
  cases d.result with
  | none => simp [Plain]
  | some r =>
    refine List.forall_mem_cons.2 ⟨by decide, ?_⟩
    rw [Padded.text, List.append_assoc]
    exact List.forall_mem_append.2 ⟨space r.frontSpace, List.forall_mem_append.2 ⟨r.item.plain, space r.backSpace⟩⟩

/-- No form goes on within the result type, where something of the type is left. -/
theorem refuses_within {f : Form} {r : ResultType} {u v : List Char} (split : r.text = u ++ v) (filled : v ≠ [])
    (d : Declared) (b : Option Char) (t : List Char) :
    (do gap; f.close; return d : Recognizer Declared).Refuses ⟨b, v ++ t⟩ := by
  have last := (Text.trim_eq_self_iff.1 r.trimmed).2
  rw [split] at last
  obtain ⟨x, rest, left, within⟩ := Text.exists_trimLeft filled last
  obtain ⟨brace, equals⟩ := r.plain x (by simp [split, within])
  obtain ⟨b', blanks⟩ := Reads.gap_trimmed (b := b) (t := v ++ t)
  rw [Text.trimLeft_append, left, if_neg (List.cons_ne_nil x rest)] at blanks
  exact .after blanks (.bind (Form.close_refuses brace equals))

theorem ending_declared (d : Declaration) (f : Form) (b : Option Char) (visibility : Option String) (fn params : List Char) :
    ∃ c, (ending f visibility fn params).Prefers ⟨b, d.resultText ++ ' ' :: f.body⟩
      { visibility, name := fn, parameters := params, result := d.result.map (·.item.text) } c := by
  have stop : ∀ c ∈ f.body.head?, Text.isBlank c = false := Form.closes_head_visible f.closes_body
  rw [Declaration.resultText]
  cases d.result with
  | none =>
    have noColon : ∀ b, (sign ':').Refuses ⟨b, f.body⟩ := by
      intro b
      cases f <;> exact .sign (by decide)
    have gap : ∀ b, gap.Reads ⟨b, [' '] ++ f.body⟩ () ⟨[' '].getLast? <|> b, f.body⟩ := fun b => .gap Text.isBlank_space stop
    have noType : resultType.Reads ⟨b, ' ' :: f.body⟩ none ⟨b, ' ' :: f.body⟩ := by
      refine .optional_none (.after (gap b) ?_)
      exact .bind (noColon _)
    obtain ⟨c, close⟩ := Form.close_reads f.closes_body (some ' ')
    refine ⟨c, ?_⟩
    apply Prefers.after noType
    apply Prefers.after (gap b)
    apply Prefers.bind close
    exact Reads.pure.prefers
  | some r =>
    have frontBlank : ∀ c ∈ r.front, Text.isBlank c = true := fun c mem => isBlank_of_isSpace (r.frontSpace c mem)
    have backBlank : ∀ c ∈ r.back ++ [' '], Text.isBlank c = true :=
      List.forall_mem_append.2 ⟨fun c mem => isBlank_of_isSpace (r.backSpace c mem), Text.isBlank_space⟩
    obtain ⟨x, w, core⟩ := List.exists_cons_of_ne_nil r.item.filled
    obtain ⟨head, last⟩ := Text.trim_eq_self_iff.1 r.item.trimmed
    have first : Text.isBlank x = false := head x (by rw [core]; rfl)
    have chars : ∀ c ∈ r.item.text, isPlain c = true := fun c mem => by simpa [isPlain] using r.item.plain c mem
    rw [core] at chars
    obtain ⟨plain, plainRest⟩ := List.forall_mem_cons.1 chars
    have shape : ':' :: r.text ResultType.text ++ ' ' :: f.body =
        ':' :: (r.front ++ x :: (w ++ ((r.back ++ [' ']) ++ f.body))) := by
      simp [Padded.text, core]
    have stops : ((r.back ++ [' ']) ++ f.body).head?.all (fun c => Text.isBlank c || c == '\x7b' || c == '=') = true := by
      obtain ⟨y, spaces, back⟩ := List.exists_cons_of_ne_nil (List.append_ne_nil_of_right_ne_nil r.back (List.cons_ne_nil ' ' []))
      have blank := backBlank y (by simp [back])
      simp [back, blank]
    obtain ⟨c, close⟩ := Form.close_reads f.closes_body ((r.back ++ [' ']).getLast? <|> (w.getLast? <|> some x))
    refine ⟨c, ?_⟩
    rw [shape, Option.map_some, core]
    apply Prefers.bind_optional_some
    apply Prefers.assoc
    apply Prefers.after (.gap_none (by decide))
    apply Prefers.assoc
    apply Prefers.after .sign
    apply Prefers.assoc
    apply Prefers.bind (.skip (.many frontBlank (by simpa using first)))
    apply Prefers.assoc
    apply Prefers.after (.char plain)
    apply Prefers.assoc
    apply Prefers.bind_fewest plainRest stops
    · intro u y v split _
      apply Refuses.after .pure
      exact refuses_within (u := x :: u) (v := y :: v) (by rw [core, split]; rfl) (List.cons_ne_nil y v) _ _ _
    · apply Prefers.after .pure
      apply Prefers.after (.gap backBlank stop)
      apply Prefers.bind close
      exact Reads.pure.prefers

/-- The parameters are read to a parenthesis, and as they are written if and only if none within them seems to end them. -/
theorem behindName_first (d : Declaration) (f : Form) (b : Option Char) (visibility : Option String) (fn : List Char) :
    ∃ r c, (parameterText >>= ending f visibility fn).first ⟨b, d.behindName f⟩ = some (r, c) ∧ r.name = fn ∧
      (r = { visibility, name := fn, parameters := d.parameters, result := d.result.map (·.item.text) } ↔
        ∀ u v, d.parameters = u ++ ')' :: v → ¬ Ends f v) := by
  have opened : (parameterText >>= ending f visibility fn).first ⟨b, d.behindName f⟩ =
      (upTo ')' >>= ending f visibility fn).first ⟨some '(', d.parameters ++ ')' :: (d.resultText ++ ' ' :: f.body)⟩ :=
    Reads.first_bind (f := fun _ => upTo ')' >>= ending f visibility fn) .sign
  obtain ⟨c, ends⟩ := ending_declared d f (some ')') visibility fn d.parameters
  obtain ⟨w, t, -, -, read, found⟩ := upTo_shortest (b := some '(') (Option.isSome_of_eq_some ends.first)
  obtain ⟨⟨r, c'⟩, reading⟩ := Option.isSome_iff_exists.1 found
  obtain ⟨-, name, -⟩ := (ending_yields f visibility fn w).of_first reading
  refine ⟨r, c', by rw [opened, read, reading], name, ?_, ?_⟩
  · rintro rfl u v split opens
    -- the parameters up to the earlier parenthesis are read, or fewer
    have fits : Fits f (v ++ ')' :: (d.resultText ++ ' ' :: f.body)) := (fits_iff_ends (plain_resultText d)).2 opens
    obtain ⟨w', t', -, shorter, earlier, -⟩ := upTo_shortest (b := some '(') (ending_allows fits (some ')') visibility fn u)
    have same : u ++ ')' :: (v ++ ')' :: (d.resultText ++ ' ' :: f.body)) =
        d.parameters ++ ')' :: (d.resultText ++ ' ' :: f.body) := by simp [split]
    rw [same, read, reading] at earlier
    have parameters : d.parameters = w' := ((ending_yields f visibility fn w').of_first earlier.symm).2.2
    have length := congrArg List.length split
    rw [parameters, List.length_append, List.length_cons] at length
    omega
  · intro whole
    have reads : (upTo ')' >>= ending f visibility fn).Prefers ⟨some '(', d.parameters ++ ')' :: (d.resultText ++ ' ' :: f.body)⟩
        { visibility, name := fn, parameters := d.parameters, result := d.result.map (·.item.text) } c := by
      refine .bind_upTo (fun u v split => ?_) ends
      refine .of_yields (ending_yields f visibility fn u) ?_
      rintro _ _ ⟨fits, -, -⟩
      exact whole u v split ((fits_iff_ends (plain_resultText d)).1 fits)
    rw [reads.first, reading] at read
    cases read
    rfl

theorem typeParameters_paren (b : Option Char) (t : List Char) :
    typeParameters.Reads ⟨b, '(' :: t⟩ () ⟨b, '(' :: t⟩ := .skip (.optional_none (.bind (.sign (by decide))))

theorem functionForm_first {g : List Char} (blank : ∀ c ∈ g, Text.isBlank c = true) (n : DollarName) (t : List Char) :
    ∃ b, functionForm.first (.start ("function".toList ++ (g ++ (n.text ++ '(' :: t)))) =
      (parameterText >>= ending .function none n.text).first ⟨b, '(' :: t⟩ := by
  have letter : Text.isBlank n.first = false := n.isBlank n.first (by simp [DollarName.text])
  have star : n.first ≠ '*' := Text.ne_of_class n.letter (by decide)
  refine ⟨n.rest.getLast? <|> some n.first, ?_⟩
  apply Reads.first_after (.skip (.optional_none (.bind (.text (by simp)))))
  apply Reads.first_after (.skip (.optional_none (.bind (.text (by simp)))))
  apply Reads.first_after (.skip (.optional_none (.bind (.text (by simp)))))
  apply Reads.first_after .word
  apply Reads.first_after (.gap blank (by rintro _ ⟨⟩; exact letter))
  apply Reads.first_after (.skip (.optional_none (.sign star)))
  apply Reads.first_after (.gap (w := []) (by simp) (by rintro _ ⟨⟩; exact letter))
  apply Reads.first_after (.dollarIdentifier (by rintro _ ⟨⟩; decide))
  apply Reads.first_after (.gap_none (by decide))
  apply Reads.first_after (typeParameters_paren _ t)
  apply Reads.first_after (.gap_none (by decide))
  rfl

theorem arrowForm_first (n : DollarName) (t : List Char) :
    ∃ b, arrowForm.first (.start ("const".toList ++ ' ' :: (n.text ++ " = ".toList ++ '(' :: t))) =
      (parameterText >>= ending .arrow none n.text).first ⟨b, '(' :: t⟩ := by
  have letter : Text.isBlank n.first = false := n.isBlank n.first (by simp [DollarName.text])
  have apart : ["const", "let", "var"].Pairwise Apart := by decide +kernel
  have shape : n.text ++ " = ".toList ++ '(' :: t = n.text ++ ' ' :: '=' :: ' ' :: '(' :: t := by simp
  refine ⟨some ' ', ?_⟩
  rw [shape]
  apply Reads.first_after (.skip (.optional_none (.bind (.text (by simp)))))
  apply Reads.first_after (.skip (.oneOf apart (by simp)))
  apply Reads.first_after (.gap1_space letter)
  apply Reads.first_after (.dollarIdentifier (by rintro _ ⟨⟩; decide))
  apply Reads.first_after (.gap_space (by decide))
  apply Reads.first_after (.skip (.optional_none (.bind (.sign (by decide)))))
  apply Reads.first_after .sign
  apply Reads.first_after (.gap_space (by decide))
  apply Reads.first_after (.skip (.optional_none (.bind (.text (by simp)))))
  apply Reads.first_after (typeParameters_paren _ t)
  apply Reads.first_after (.gap_none (by decide))
  rfl

/-- A name in front of a parenthesis is no word with blanks behind. -/
theorem refuses_keyword (n : DollarName) (t : List Char) (b : Option Char) {w : String}
    (chars : w.toList.all isDollarWord = true) : (keyword w).Refuses ⟨b, n.text ++ '(' :: t⟩ :=
  .keyword (fun _ => Text.class_of_isBlank fun _ => isBlank_of_isDollarWord) n.isDollarWord (by simp; decide)
    (List.all_eq_true.1 chars) fun _ => by simp; decide

theorem refuses_words (n : DollarName) (t : List Char) (b : Option Char) {ws : List String}
    (chars : (ws.all fun w => w.toList.all isDollarWord) = true) :
    (do let v ← oneOf ws; gap1; return v : Recognizer String).Refuses ⟨b, n.text ++ '(' :: t⟩ :=
  .word_gap (fun _ => Text.class_of_isBlank fun _ => isBlank_of_isDollarWord) n.isDollarWord (by simp; decide)
    (fun w mem => List.all_eq_true.1 (List.all_eq_true.1 chars w mem)) fun _ => by simp; decide

theorem controlWords_apart : controlWords.Pairwise Apart := by decide +kernel

def control : Recognizer Unit := do skip (oneOf controlWords); wordEdge

/-- A name is taken for control flow if it is one of the words as far as it consists of word characters. -/
theorem control_first (n : DollarName) (t : List Char) (b : Option Char) :
    control.first ⟨b, n.text ++ '(' :: t⟩ = none ↔ String.ofList (n.text.takeWhile Text.isWord) ∉ controlWords := by
  have nonempty : ∀ w ∈ controlWords, w.toList ≠ [] := by decide
  have chars : ∀ w ∈ controlWords, ∀ x ∈ w.toList, Text.isWord x = true ∧ x ≠ '(' := forall_inner_of_all (by decide +kernel)
  have unique : ∀ v ∈ controlWords, ∀ w ∈ controlWords, v.toList <+: w.toList → v.toList = w.toList := by decide +kernel
  by_cases starts : ∃ w ∈ controlWords, w.toList <+: n.text
  · obtain ⟨w, known, r, shape⟩ := starts
    have filled := nonempty w known
    have word := chars w known
    have last : w.toList.getLast?.any Text.isWord = true := by
      rw [List.getLast?_eq_some_getLast filled]
      exact (word _ (List.getLast_mem filled)).1
    have front : n.text.takeWhile Text.isWord = w.toList ++ r.takeWhile Text.isWord := by
      rw [← shape, List.takeWhile_append_of_pos fun x mem => (word x mem).1]
    have edge : control.first ⟨b, n.text ++ '(' :: t⟩ = wordEdge.first ⟨w.toList.getLast? <|> b, r ++ '(' :: t⟩ := by
      rw [← shape, List.append_assoc]
      exact Reads.first_bind (.skip (.oneOf controlWords_apart known))
    have before : (w.toList.getLast? <|> b).any Text.isWord = true := by
      rw [List.getLast?_eq_some_getLast filled] at last ⊢
      exact last
    rw [edge, front, first, wordEdge]
    dsimp only
    rw [before]
    cases ends : (r ++ '(' :: t).head?.any Text.isWord with
    | false =>
      have none : r.takeWhile Text.isWord = [] := by
        cases r with
        | nil => rfl
        | cons x r =>
          have other : Text.isWord x = false := by simpa using ends
          simp [other]
      simp [none, known]
    | true =>
      -- more of a word follows, so the name starts with none of the words alone
      refine iff_of_true rfl fun mem => ?_
      have same := unique w known _ mem (by simp)
      cases r with
      | nil => exact absurd ends (by simp; decide)
      | cons x r =>
        have fits : Text.isWord x = true := by simpa using ends
        simp [fits] at same
  · have none : control.first ⟨b, n.text ++ '(' :: t⟩ = none := by
      refine Refuses.first (.bind (.skip (.oneOf fun w known prefixed => starts ⟨w, known, ?_⟩)))
      exact Text.prefix_of_append_cons (fun mem => (chars w known '(' mem).2 rfl) prefixed
    refine iff_of_true none fun mem => starts ⟨_, mem, ?_⟩
    rw [String.toList_ofList]
    exact List.takeWhile_prefix _

theorem methodForm_first (n : DollarName) (t : List Char)
    (other : String.ofList (n.text.takeWhile Text.isWord) ∉ controlWords) :
    ∃ b, methodForm.first (.start (n.text ++ '(' :: t)) =
      (parameterText >>= ending .method none n.text).first ⟨b, '(' :: t⟩ := by
  have star : (sign '*').Refuses (.start (n.text ++ '(' :: t)) := .sign (Text.ne_of_class n.letter (by decide))
  have noControl : (notAhead control).Reads (.start (n.text ++ '(' :: t)) () (.start (n.text ++ '(' :: t)) := by
    intro ρ k
    rw [notAhead, Cursor.start, (control_first n t none).2 other]
    rfl
  refine ⟨n.rest.getLast? <|> some n.first, ?_⟩
  apply Reads.first_after (.optional_none (refuses_words n t none (by decide)))
  apply Reads.first_after (.skip (.optional_none (refuses_keyword n t none (by decide))))
  apply Reads.first_after (.skip (.optional_none (refuses_keyword n t none (by decide))))
  apply Reads.first_after (.skip (.optional_none (refuses_keyword n t none (by decide))))
  apply Reads.first_after (.skip (.optional_none star))
  apply Reads.first_after noControl
  apply Reads.first_after (.dollarIdentifier (by rintro _ ⟨⟩; decide))
  apply Reads.first_after (.gap_none (by decide))
  apply Reads.first_after (typeParameters_paren _ t)
  apply Reads.first_after (.gap_none (by decide))
  rfl

theorem methodForm_control (n : DollarName) (t : List Char)
    (known : String.ofList (n.text.takeWhile Text.isWord) ∈ controlWords) :
    methodForm.first (.start (n.text ++ '(' :: t)) = none := by
  have star : (sign '*').Refuses (.start (n.text ++ '(' :: t)) := .sign (Text.ne_of_class n.letter (by decide))
  have some : (control.first (.start (n.text ++ '(' :: t))).isNone = false := by
    rw [Bool.eq_false_iff, Option.isNone_iff_eq_none.ne, Cursor.start, Ne, control_first]
    exact fun other => other known
  have isControl : (notAhead control).Refuses (.start (n.text ++ '(' :: t)) := by
    intro ρ k
    rw [notAhead, some]
    rfl
  apply Reads.first_after (.optional_none (refuses_words n t none (by decide)))
  apply Reads.first_after (.skip (.optional_none (refuses_keyword n t none (by decide))))
  apply Reads.first_after (.skip (.optional_none (refuses_keyword n t none (by decide))))
  apply Reads.first_after (.skip (.optional_none (refuses_keyword n t none (by decide))))
  apply Reads.first_after (.skip (.optional_none star))
  exact Refuses.first isControl.bind

/-- A method is read as a declaration only if its name is `function` with a name behind. -/
theorem functionForm_method (n : DollarName) (t : List Char) (other : ∀ m : DollarName, n.text ≠ "function".toList ++ m.text) :
    functionForm.first (.start (n.text ++ '(' :: t)) = none := by
  apply Reads.first_after (.skip (.optional_none (refuses_keyword n t none (by decide))))
  apply Reads.first_after (.skip (.optional_none (refuses_keyword n t none (by decide))))
  apply Reads.first_after (.skip (.optional_none (refuses_keyword n t none (by decide))))
  by_cases starts : "function".toList <+: n.text
  · obtain ⟨r, shape⟩ := starts
    have word : ∀ c ∈ r, isDollarWord c = true := fun c mem => n.isDollarWord c (by rw [← shape]; exact List.mem_append_right _ mem)
    have noName : ∀ b, (char isDollarLetter).Refuses ⟨b, r ++ '(' :: t⟩ := by
      intro b
      cases r with
      | nil => exact .char (by decide)
      | cons x r =>
        refine .char (Bool.eq_false_iff.2 fun letter => ?_)
        exact other ⟨x, r, letter, fun c mem => word c (List.mem_cons_of_mem x mem)⟩ shape.symm
    have visible : ∀ c ∈ (r ++ '(' :: t).head?, isDollarWord c = true ∨ c = '(' := by
      cases r with
      | nil => exact fun c mem => .inr (Option.mem_some.1 mem).symm
      | cons x r =>
        rintro _ ⟨⟩
        exact .inl (word x (by simp))
    have stop : ∀ c ∈ (r ++ '(' :: t).head?, Text.isBlank c = false := by
      intro c mem
      rcases visible c mem with fits | rfl
      · exact isBlank_of_isDollarWord fits
      · decide
    have noStar : ∀ b, (sign '*').Refuses ⟨b, r ++ '(' :: t⟩ := by
      intro b
      cases r with
      | nil => exact .sign (by decide)
      | cons x r => exact .sign (Text.ne_of_class (word x (by simp)) (by decide))
    rw [← shape, List.append_assoc]
    apply Reads.first_after .word
    apply Reads.first_after (.gap (w := []) (by simp) stop)
    apply Reads.first_after (.skip (.optional_none (noStar _)))
    apply Reads.first_after (.gap (w := []) (by simp) stop)
    exact Refuses.first (.bind (.bind (noName _)))
  · exact Refuses.first (.bind (.text fun found => starts (Text.prefix_of_append_cons (by decide) found)))

theorem arrowForm_method (n : DollarName) (t : List Char) : arrowForm.first (.start (n.text ++ '(' :: t)) = none := by
  apply Reads.first_after (.skip (.optional_none (refuses_keyword n t none (by decide))))
  exact Refuses.first (Refuses.bind (r := do skip (oneOf ["const", "let", "var"]); gap1)
    (.keyword_gap (refuses_words n t none (by decide))))

theorem functionForm_arrow (t : List Char) : functionForm.first (.start ("const".toList ++ t)) = none := by
  apply Reads.first_after (.skip (.optional_none (.bind (.text (by simp)))))
  apply Reads.first_after (.skip (.optional_none (.bind (.text (by simp)))))
  apply Reads.first_after (.skip (.optional_none (.bind (.text (by simp)))))
  exact Refuses.first (.bind (.text (by simp)))

namespace Declaration

variable (d : Declaration)

/-- The name is read as it is written. A method is not if its name is a word of control flow up to a dollar sign, or goes on
behind `function`. -/
def NameRead : Form → Prop
  | .method => String.ofList (d.name.text.takeWhile Text.isWord) ∉ controlWords ∧
      ∀ m : DollarName, d.name.text ≠ "function".toList ++ m.text
  | _ => True

def ParametersRead (f : Form) : Prop := ∀ u v, d.parameters = u ++ ')' :: v → ¬ Ends f v

theorem declared_named {f : Form} (named : d.NameRead f) :
    ∃ r, declared? (d.line f) = some r ∧ r.name = d.name.text ∧ (r = d.declared ↔ d.ParametersRead f) := by
  obtain ⟨t, opened⟩ : ∃ t, d.behindName f = '(' :: t := ⟨_, rfl⟩
  cases f with
  | function =>
    obtain ⟨b, head⟩ := functionForm_first Text.isBlank_space d.name t
    obtain ⟨r, c, reading, name, whole⟩ := behindName_first d .function b none d.name.text
    have shape : d.line .function = "function".toList ++ ([' '] ++ (d.name.text ++ '(' :: t)) := by
      rw [← opened]
      exact List.append_assoc _ _ _
    have read : functionForm.first (.start (d.line .function)) = some (r, c) := by
      rw [opened] at reading
      rw [shape, head, reading]
    exact ⟨r, by simp [declared?, atStart, read], name, whole⟩
  | arrow =>
    obtain ⟨b, head⟩ := arrowForm_first d.name t
    obtain ⟨r, c, reading, name, whole⟩ := behindName_first d .arrow b none d.name.text
    have shape : d.line .arrow = "const".toList ++ ' ' :: (d.name.text ++ " = ".toList ++ '(' :: t) := by
      rw [← opened]
      exact List.append_assoc _ _ _
    have other : functionForm.first (.start (d.line .arrow)) = none := by rw [shape, functionForm_arrow]
    have read : arrowForm.first (.start (d.line .arrow)) = some (r, c) := by
      rw [opened] at reading
      rw [shape, head, reading]
    exact ⟨r, by simp [declared?, atStart, other, read], name, whole⟩
  | method =>
    obtain ⟨b, head⟩ := methodForm_first d.name t named.1
    obtain ⟨r, c, reading, name, whole⟩ := behindName_first d .method b none d.name.text
    have shape : d.line .method = d.name.text ++ '(' :: t := congrArg (d.name.text ++ ·) opened
    have function : functionForm.first (.start (d.line .method)) = none := by
      rw [shape, functionForm_method d.name t named.2]
    have arrow : arrowForm.first (.start (d.line .method)) = none := by rw [shape, arrowForm_method]
    have read : methodForm.first (.start (d.line .method)) = some (r, c) := by
      rw [opened] at reading
      rw [shape, head, reading]
    exact ⟨r, by simp [declared?, atStart, function, arrow, read], name, whole⟩

/-- A method whose name is read as something else is not found under its name. -/
theorem declared_unnamed {f : Form} (unnamed : ¬ d.NameRead f) {r : Declared} (read : declared? (d.line f) = some r) :
    r.name ≠ d.name.text := by
  cases f with
  | function => exact absurd trivial unnamed
  | arrow => exact absurd trivial unnamed
  | method =>
    obtain ⟨t, opened⟩ : ∃ t, d.behindName .function = '(' :: t := ⟨_, rfl⟩
    have shape : d.line .method = d.name.text ++ '(' :: t := congrArg (d.name.text ++ ·) opened
    by_cases behind : ∃ m : DollarName, d.name.text = "function".toList ++ m.text
    · obtain ⟨m, name⟩ := behind
      obtain ⟨b, head⟩ := functionForm_first Text.isBlank_nil m t
      obtain ⟨s, c, reading, found, -⟩ := behindName_first d .function b none m.text
      have function : functionForm.first (.start (d.line .method)) = some (s, c) := by
        rw [opened] at reading
        rw [shape, name, List.append_assoc]
        exact head.trans reading
      have same : s = r := by simpa [declared?, atStart, function] using read
      rw [← same, found, name]
      intro shorter
      have length := congrArg List.length shorter
      rw [List.length_append] at length
      have filled : "function".toList.length = 8 := rfl
      omega
    · have known : String.ofList (d.name.text.takeWhile Text.isWord) ∈ controlWords := by
        by_contra other
        exact unnamed ⟨other, fun m name => behind ⟨m, name⟩⟩
      have function : functionForm.first (.start (d.line .method)) = none := by
        rw [shape, functionForm_method d.name t fun m name => behind ⟨m, name⟩]
      have arrow : arrowForm.first (.start (d.line .method)) = none := by rw [shape, arrowForm_method]
      have method : methodForm.first (.start (d.line .method)) = none := by rw [shape, methodForm_control d.name t known]
      simp [declared?, atStart, function, arrow, method] at read

theorem whole_line (f : Form) : ∀ c ∈ d.line f, Text.isLineBreak c = false := by
  have name : ∀ c ∈ d.name.text, Text.isLineBreak c = false := fun c mem =>
    Text.isLineBreak_of_not_blank (d.name.isBlank c mem)
  have function : ∀ c ∈ "function".toList, Text.isLineBreak c = false := forall_of_all (by decide)
  have const : ∀ c ∈ "const".toList, Text.isLineBreak c = false := forall_of_all (by decide)
  have equals : ∀ c ∈ " = ".toList, Text.isLineBreak c = false := forall_of_all (by decide)
  have naming : ∀ c ∈ d.naming f, Text.isLineBreak c = false := by
    cases f with
    | function => exact List.forall_mem_append.2 ⟨function, List.forall_mem_cons.2 ⟨by decide, name⟩⟩
    | arrow =>
      exact List.forall_mem_append.2 ⟨const, List.forall_mem_cons.2 ⟨by decide, List.forall_mem_append.2 ⟨name, equals⟩⟩⟩
    | method => exact name
  have result : ∀ c ∈ d.resultText, Text.isLineBreak c = false := by
    rw [resultText]
    cases d.result with
    | none => simp
    | some r =>
      refine List.forall_mem_cons.2 ⟨by decide, ?_⟩
      rw [Padded.text, List.append_assoc]
      exact List.forall_mem_append.2 ⟨fun c mem => isLineBreak_of_isSpace (r.frontSpace c mem),
        List.forall_mem_append.2 ⟨r.item.whole, fun c mem => isLineBreak_of_isSpace (r.backSpace c mem)⟩⟩
  have body : ∀ c ∈ f.body, Text.isLineBreak c = false := by
    cases f <;> exact forall_of_all (by decide)
  have behindParameters : ∀ c ∈ d.resultText ++ ' ' :: f.body, Text.isLineBreak c = false :=
    List.forall_mem_append.2 ⟨result, List.forall_mem_cons.2 ⟨by decide, body⟩⟩
  have behindName : ∀ c ∈ d.behindName f, Text.isLineBreak c = false :=
    List.forall_mem_cons.2 ⟨by decide, List.forall_mem_append.2 ⟨d.whole, List.forall_mem_cons.2 ⟨by decide, behindParameters⟩⟩⟩
  exact List.forall_mem_append.2 ⟨naming, behindName⟩

theorem results_declared : results d.declared.result = d.result.toList.map fun r => Source.result r.item.text [] := by
  rw [declared, results]
  cases d.result with
  | none => rfl
  | some r =>
    have filled : r.item.text.isEmpty = false := List.isEmpty_eq_false_iff.2 r.item.filled
    simp [r.item.trimmed, filled]

theorem trim_line (f : Form) : Text.trim (d.line f) = d.line f := by
  have shape : d.line f = (d.naming f ++ '(' :: (d.parameters ++ ')' :: (d.resultText ++ [' ']))) ++ f.body := by
    simp [line, behindName]
  have last : f.body.getLast? = some '{' := by cases f <;> rfl
  refine Text.trim_eq_self_iff.2 ⟨fun c mem => ?_, fun c mem => ?_⟩
  · cases f with
    | function =>
      cases mem
      decide
    | arrow =>
      cases mem
      decide
    | method =>
      cases mem
      exact d.name.isBlank _ List.mem_cons_self
  · rw [shape, List.getLast?_append, last] at mem
    cases mem
    decide

end Declaration

theorem signatures_line (d : Declaration) (f : Form) (file : String) :
    signatures file (d.line f) = lineSignatures file 1 (d.line f) := by
  have filled : d.line f ≠ [] := List.append_ne_nil_of_right_ne_nil _ (List.cons_ne_nil _ _)
  exact eachLine_line filled (d.whole_line f)

/-- Under the name of a function one signature is read from each of its forms, but for methods with a name that is read as
something else. What is declared is read as it is written if and only if no parenthesis within the parameters seems to end
them, and then the forms agree. -/
theorem signatures_form (d : Declaration) (f : Form) (file : String) :
    ((∃ s, signatures file (d.line f) = [s] ∧ s.name = String.ofList d.name.text) ↔ d.NameRead f) ∧
    (declared? (d.line f) = some d.declared ↔ d.NameRead f ∧ d.ParametersRead f) ∧
    (d.NameRead f → d.ParametersRead f → signatures file (d.line f) = [d.signature file]) := by
  rw [signatures_line, lineSignatures, d.trim_line]
  by_cases named : d.NameRead f
  · obtain ⟨r, read, name, whole⟩ := d.declared_named named
    rw [read, Option.some_inj, whole]
    refine ⟨iff_of_true ⟨_, rfl, congrArg String.ofList name⟩ named, (and_iff_right named).symm, fun _ parameters => ?_⟩
    have same : r = d.declared := whole.2 parameters
    simp only [same, Option.toList_some, List.map_cons, List.map_nil, d.results_declared]
    rfl
  · refine ⟨iff_of_false ?_ named, iff_of_false (fun read => ?_) fun both => named both.1, fun read => absurd read named⟩
    · rintro ⟨s, single, name⟩
      cases read : declared? (d.line f) with
      | none => simp [read] at single
      | some r =>
        rw [read] at single
        cases single
        exact d.declared_unnamed named read (String.ofList_injective name)
    · exact d.declared_unnamed named read rfl

def saveDeclaration : Declaration where
  name := ⟨'s', "ave".toList, by decide, forall_of_all (by decide)⟩
  parameters := "xs: Map<string, number>, n?: number = 3".toList
  whole := forall_of_all (by decide)
  result := some
    { front := [' ']
      item :=
        { text := "Promise<void>".toList
          filled := by decide
          trimmed := by decide
          plain := plain_of_isPlain (forall_of_all (by decide))
          whole := forall_of_all (by decide) }
      frontSpace := isSpace_space }

def callbackDeclaration : Declaration where
  name := ⟨'s', "ave".toList, by decide, forall_of_all (by decide)⟩
  parameters := "cb: (x: number) => void".toList
  whole := forall_of_all (by decide)

-- the arrow behind a parenthesis within the parameters is taken for the one of the function
theorem signatures_form_save :
    signatures "a.js" "const save = (xs: Map<string, number>, n?: number = 3): Promise<void> => \x7b".toList =
      [{ name := "save"
         parameters := [⟨"xs", "Map<string, number>"⟩, ⟨"n", "number"⟩]
         results := [⟨"Promise<void>", ""⟩]
         file := "a.js"
         line := 1
         visibility := .pub }] ∧
    declared? "const save = (cb: (x: number) => void) => \x7b".toList ≠ some callbackDeclaration.declared := by
  obtain ⟨-, -, read⟩ := signatures_form saveDeclaration .arrow "a.js"
  obtain ⟨-, lost, -⟩ := signatures_form callbackDeclaration .arrow "a.js"
  have single : saveDeclaration.ParametersRead .arrow := by
    intro u v split
    have closed : ')' ∈ saveDeclaration.parameters := by
      rw [split]
      simp
    exact absurd closed (by decide)
  have parameters : JavaScript.parameters saveDeclaration.parameters = [⟨"xs", "Map<string, number>"⟩, ⟨"n", "number"⟩] := by
    decide +kernel
  have ended : ¬ callbackDeclaration.ParametersRead .arrow := fun whole =>
    whole "cb: (x: number".toList " => void".toList rfl (.inl ⟨" void".toList, rfl⟩)
  have line : saveDeclaration.line .arrow =
      "const save = (xs: Map<string, number>, n?: number = 3): Promise<void> => \x7b".toList := by decide +kernel
  have lineLost : callbackDeclaration.line .arrow = "const save = (cb: (x: number) => void) => \x7b".toList := by
    decide +kernel
  rw [← parameters, ← line, ← lineLost]
  exact ⟨read trivial single, fun same => ended (lost.1 same).2⟩

end Drift.Source.JavaScript
