import Drift.Proofs.Source.CSharp.Parameters
import Drift.Proofs.Source.Scan
import Drift.Proofs.Source.Visibility

namespace Drift.Source.CSharp

open Recognizer

def methodModifiers : List String :=
  ["internal", "static", "async", "virtual", "override", "abstract", "sealed", "new", "partial", "extern", "unsafe",
    "readonly"]

theorem visibilityWords_apart : visibilityWords.Pairwise Apart := by decide +kernel

structure Declaration where
  type : TypeText
  otherType : String.ofList type.base.text ∉ reservedWords ++ methodModifiers
  name : Identifier
  otherName : String.ofList name.text ∉ reservedWords
  parameters : List (Padded Parameter)

namespace Declaration

variable (d : Declaration)

def parameterText : List Char := listed Parameter.text d.parameters

def naming : List Char := d.type.marks ++ ' ' :: d.name.text

def behindName : List Char := d.parameterText ++ ')' :: " \x7b".toList

def behindVisibility : List Char := d.type.toApplied.text ++ (d.naming ++ '(' :: d.behindName)

def line : List Char := "public".toList ++ ' ' :: d.behindVisibility

def signature (file : String) : Signature where
  name := String.ofList d.name.text
  parameters := d.parameters.map (·.item.declared)
  results := if d.type.text = "void".toList then [] else [result d.type.text []]
  file
  line := 1
  visibility := .pub

end Declaration

def behindType (visibility : Option String) (base : List Char) : Recognizer Java.Method := do
  let array ← optional (word "[]")
  let question ← optional (sign '?')
  gap1
  let fn ← identifier
  gap
  skip (optional (group '<' (fun c => c != '>' && c != '(') '>'))
  gap
  sign '('
  let rest ← remainder
  return {
    visibility
    type := base ++ (if array.isSome then "[]".toList else []) ++ (if question.isSome then ['?'] else [])
    name := fn
    rest }

theorem behindType_toParen (visibility : Option String) (base : List Char) : (behindType visibility base).ToParen := by
  have blank : ∀ x, Text.isBlank x = true → ToParen.Plain x := fun x fits =>
    ⟨Text.ne_of_class fits (by decide), Text.ne_of_class fits (by decide)⟩
  have word : ∀ x, Text.isWord x = true → ToParen.Plain x := fun x fits =>
    ⟨Text.ne_of_class fits (by decide), Text.ne_of_class fits (by decide)⟩
  have array : ∀ x ∈ "[]".toList, ToParen.Plain x := by
    intro x mem
    constructor <;>
      · rintro rfl
        exact absurd mem (by decide)
  have name : identifier.Spans ToParen.Plain :=
    .bind (.char fun x letter => word x (isWord_of_isLetter letter)) fun x => .bind (.run word) fun w => .pure (x :: w)
  refine .span (.optional (.word array)) fun _ => .span (.optional (.sign ⟨by decide, by decide⟩)) fun _ => ?_
  refine .span (.gap1 blank) fun _ => .span name fun fn => .span (.gap blank) fun _ => ?_
  exact .angles (p := fun c => c != '>' && c != '(') (by decide) (by decide)

namespace Declaration

variable (d : Declaration)

theorem exists_base (u : List Char) : ∃ v, d.type.toApplied.text ++ (d.naming ++ u) = d.type.base.text ++ v ∧
    ∀ c ∈ v.head?, isDottedWord c = false := by
  obtain ⟨v, shape, head⟩ := d.type.exists_behind (' ' :: (d.name.text ++ u))
  refine ⟨v, ?_, fun c mem => ?_⟩
  · rw [← shape]
    simp [TypeText.text, naming]
  · rcases head c mem with rfl | rfl | rfl | space
    · decide
    · decide
    · decide
    · cases space
      decide

/-- The name of the result type is none of the words in front of a declaration. -/
theorem refuses_modifiers (b : Option Char) :
    (do skip (oneOf methodModifiers); gap1 : Recognizer Unit).Refuses ⟨b, d.behindVisibility⟩ := by
  obtain ⟨v, shape, stop⟩ := d.exists_base ('(' :: d.behindName)
  have chars : ∀ w ∈ methodModifiers, ∀ x ∈ w.toList, isDottedWord x = true :=
    forall_inner_of_all (by decide)
  rw [behindVisibility, shape]
  exact .keyword_gap (.word_gap (fun _ => Text.class_of_isBlank fun _ => isBlank_of_isDottedWord) d.type.base.fits stop chars
    fun mem => absurd (List.mem_append_right _ mem) d.otherType)

theorem naming_free : '(' ∉ d.naming := by
  have marks : ∀ m ∈ ["[]?".toList, "[]".toList, "?".toList, []], '(' ∉ m := by decide
  rw [naming, List.mem_append, List.mem_cons, not_or, not_or]
  exact ⟨marks _ d.type.marks_cases, by decide, fun mem =>
    Text.ne_of_class (d.name.isWord _ mem) (x := '(') (by decide) rfl⟩

theorem naming_visible : ∃ c ∈ d.naming, Text.isBlank c = false :=
  ⟨d.name.first, by simp [naming, Identifier.text], Text.isBlank_of_isWord (isWord_of_isLetter d.name.letter)⟩

theorem naming_head : ∀ c ∈ (d.naming ++ '(' :: d.behindName).head?, isDottedWord c = false ∧ c ≠ '<' := by
  have marks : ∀ m ∈ ["[]?".toList, "[]".toList, "?".toList, []], ∀ c ∈ (m ++ [' ']).head?.toList,
      isDottedWord c = false ∧ c ≠ '<' := forall_inner_of_all (by decide)
  intro c mem
  refine marks _ d.type.marks_cases c (Option.mem_toList.2 ?_)
  rw [naming] at mem
  cases shape : d.type.marks with
  | nil => simpa [shape] using mem
  | cons x m => simpa [shape] using mem

theorem array_read (array : Bool) (b : Option Char) {t : List Char} (stop : ∀ c ∈ t.head?, c ≠ '[') :
    ∃ o b', (optional (word "[]")).Prefers ⟨b, (if array then "[]".toList else []) ++ t⟩ o ⟨b', t⟩ ∧ o.isSome = array := by
  cases array with
  | true => exact ⟨some (), _, .optional_some Reads.word.prefers, rfl⟩
  | false =>
    have refused : (word "[]").Refuses ⟨b, t⟩ := by
      refine .text ?_
      rintro ⟨u, shape⟩
      exact stop '[' (by rw [← shape]; rfl) rfl
    exact ⟨none, b, (Reads.optional_none refused).prefers, rfl⟩

theorem question_read (question : Bool) (b : Option Char) {t : List Char} {x : Char} (stop : x ≠ '?') :
    ∃ o b', (optional (sign '?')).Prefers ⟨b, (if question then ['?'] else []) ++ x :: t⟩ o ⟨b', x :: t⟩ ∧
      o.isSome = question := by
  cases question with
  | true => exact ⟨some (), _, .optional_some Reads.sign.prefers, rfl⟩
  | false => exact ⟨none, b, (Reads.optional_none (.sign stop)).prefers, rfl⟩

theorem behindType_naming (b : Option Char) (visibility : Option String) :
    ∃ c, (behindType visibility d.type.toApplied.text).Prefers ⟨b, d.naming ++ '(' :: d.behindName⟩
      { visibility, type := d.type.text, name := d.name.text, rest := d.behindName } c := by
  have head : ∀ c ∈ ((if d.type.question then ['?'] else []) ++ ' ' :: (d.name.text ++ '(' :: d.behindName)).head?,
      c ≠ '[' := by
    cases d.type.question
    all_goals
      rintro _ ⟨⟩
      decide
  obtain ⟨array, b₁, readArray, isArray⟩ := array_read d.type.array b head
  obtain ⟨question, b₂, readQuestion, isQuestion⟩ :=
    question_read d.type.question b₁ (t := d.name.text ++ '(' :: d.behindName) (x := ' ') (by decide)
  have shape : d.naming ++ '(' :: d.behindName = (if d.type.array then "[]".toList else []) ++
      ((if d.type.question then ['?'] else []) ++ ' ' :: (d.name.text ++ '(' :: d.behindName)) := by
    simp [naming, TypeText.marks]
  have type : d.type.text = d.type.toApplied.text ++ (if array.isSome then "[]".toList else []) ++
      (if question.isSome then ['?'] else []) := by
    rw [isArray, isQuestion, TypeText.text, TypeText.marks, List.append_assoc]
  have noArguments : ∀ b, (group '<' (fun c => c != '>' && c != '(') '>').Refuses ⟨b, '(' :: d.behindName⟩ := fun b =>
    .bind (.sign (by decide))
  refine ⟨⟨d.behindName.getLast? <|> some '(', []⟩, ?_⟩
  rw [shape, type]
  apply Prefers.bind readArray
  apply Prefers.bind readQuestion
  apply Prefers.after (.gap1_space (Text.isBlank_of_isWord (isWord_of_isLetter d.name.letter)))
  apply Prefers.after (.identifier (by simp; decide))
  apply Prefers.after (.gap_none (by decide))
  apply Prefers.after (.skip (.optional_none (noArguments _)))
  apply Prefers.after (.gap_none (by decide))
  apply Prefers.after .sign
  apply Prefers.after .remainder
  exact Reads.pure.prefers

theorem methodHead_line : methodHead.atStart d.line =
    some { visibility := some "public", type := d.type.text, name := d.name.text, rest := d.behindName } := by
  have noAttribute : ∀ b, (do skip (group '[' (isNot ']') ']'); gap : Recognizer Unit).Refuses
      ⟨b, "public".toList ++ ' ' :: d.behindVisibility⟩ := fun b => .bind (.skip (.bind (.sign (by decide))))
  obtain ⟨v, shape, -⟩ := d.exists_base ('(' :: d.behindName)
  obtain ⟨x, w, base⟩ := List.exists_cons_of_ne_nil d.type.base.nonempty
  have first : isDottedWord x = true := d.type.base.fits x (by simp [base])
  have front : d.behindVisibility = x :: (w ++ v) := by rw [behindVisibility, shape, base]; rfl
  have stop : ∀ c ∈ d.behindVisibility.head?, Text.isBlank c = false := by
    rw [front]
    rintro _ ⟨⟩
    exact isBlank_of_isDottedWord first
  obtain ⟨c, type⟩ := d.type.prefers (b := some ' ') (by decide) (behindType_toParen (some "public")) d.naming_free
    d.naming_visible d.naming_head fun b => d.behindType_naming b (some "public")
  apply Prefers.atStart
  apply Prefers.after (.gap_none (by decide))
  apply Prefers.bind (.repeated (.done (noAttribute _)))
  apply Prefers.bind_optional_some
  apply Prefers.assoc
  apply Prefers.after (.oneOf visibilityWords_apart (by decide))
  apply Prefers.assoc
  apply Prefers.after (.gap1 (w := [' ']) (by simp) Text.isBlank_space stop)
  apply Prefers.after .pure
  apply Prefers.bind (.repeated (.done (d.refuses_modifiers _)))
  exact type

/-- No type is one of the words that a declaration does not start with: behind its name stand marks if anything. -/
theorem type_other : String.ofList d.type.text ∉ reservedWords := by
  obtain ⟨v, shape, head⟩ := d.type.exists_behind []
  rw [List.append_nil] at shape
  have stop : ∀ c ∈ v.head?, isDottedWord c = false := by
    intro c mem
    rcases head c mem with rfl | rfl | rfl | none
    · decide
    · decide
    · decide
    · cases none
  exact d.type.text_not_mem shape stop (forall_inner_of_all (by decide)) fun mem => d.otherType (List.mem_append_left _ mem)

theorem method_line : method? d.line =
    some { visibility := some "public", type := d.type.text, name := d.name.text, rest := d.behindName } := by
  simp [method?, d.methodHead_line, d.type_other, d.otherName]

theorem whole_line : ∀ c ∈ d.line, Text.isLineBreak c = false := by
  have type : ∀ c ∈ d.type.text, Text.isLineBreak c = false := fun c mem => isLineBreak_of_isTypeSign (d.type.signs c mem)
  obtain ⟨applied, marks⟩ := List.forall_mem_append.1 type
  have name : ∀ c ∈ d.name.text, Text.isLineBreak c = false := fun c mem =>
    Text.isLineBreak_of_isWord (d.name.isWord c mem)
  have parameters : ∀ c ∈ d.parameterText, Text.isLineBreak c = false :=
    forall_listed (by decide) (fun _ => isLineBreak_of_isSpace) fun x _ => x.item.isTypedPart.whole
  have word : ∀ c ∈ "public".toList, Text.isLineBreak c = false := forall_of_all (by decide)
  have brace : ∀ c ∈ " \x7b".toList, Text.isLineBreak c = false := forall_of_all (by decide)
  have naming : ∀ c ∈ d.naming, Text.isLineBreak c = false :=
    List.forall_mem_append.2 ⟨marks, List.forall_mem_cons.2 ⟨by decide, name⟩⟩
  have behindName : ∀ c ∈ d.behindName, Text.isLineBreak c = false :=
    List.forall_mem_append.2 ⟨parameters, List.forall_mem_cons.2 ⟨by decide, brace⟩⟩
  have behindVisibility : ∀ c ∈ d.behindVisibility, Text.isLineBreak c = false :=
    List.forall_mem_append.2 ⟨applied, List.forall_mem_append.2 ⟨naming, List.forall_mem_cons.2 ⟨by decide, behindName⟩⟩⟩
  exact List.forall_mem_append.2 ⟨word, List.forall_mem_cons.2 ⟨by decide, behindVisibility⟩⟩

end Declaration

theorem parameters_listed (xs : List (Padded Parameter)) :
    parameters (listed Parameter.text xs) = xs.filterMap fun x => parameterOf x.item.text := by
  rw [parameters, splitParams_typed fun x _ => x.item.isTypedPart, List.filterMap_map]
  rfl

/-- On the line of a declaration one signature is read. All of it is as declared but for the parameters, and these are as
declared if and only if no type among them has square brackets or more than one blank between two words. -/
theorem signatures_parameters (file : String) (d : Declaration) :
    signatures file d.line = .ok [{ d.signature file with parameters := parameters d.parameterText }] ∧
    (parameters d.parameterText = d.parameters.map (·.item.declared) ↔ ∀ x ∈ d.parameters, x.item.type.Kept) := by
  have filled : d.line ≠ [] := List.append_ne_nil_of_right_ne_nil _ (List.cons_ne_nil _ _)
  have lines : Text.numberedLines d.line = [(1, d.line)] := Text.numberedLines_line filled d.whole_line
  have passes : Passes 1 1 d.parameterText := passes_listed fun x _ => x.item.passes
  have cut : enclosed? d.behindName = some (d.parameterText, " \x7b".toList) := enclosed_eq_some_iff.2 ⟨rfl, passes⟩
  have visibility : visibilityOf (some "public") = .ok .pub := by decide
  constructor
  · have read : lineSignatures file 1 d.line = .ok [{ d.signature file with parameters := parameters d.parameterText }] := by
      rw [lineSignatures, d.method_line]
      simp only [cut, visibility]
      rfl
    rw [signatures, lines]
    simp only [List.mapM_cons, List.mapM_nil, read]
    rfl
  · rw [Declaration.parameterText, parameters_listed, List.filterMap_eq_map_iff_forall_eq_some]
    exact forall₂_congr fun x _ => x.item.parameterOf_text

def queryParameter : Parameter where
  attributes :=
    [{ inside := "FromQuery".toList
       balanced := .of_plain (forall_of_all (by decide))
       passes := .free (forall_of_all (by decide))
       free := forall_of_all (by decide)
       whole := forall_of_all (by decide)
       blanks := [' ']
       space := isSpace_space }]
  modifier := some "in"
  known := by decide
  type :=
    { base := .of "List".toList (by decide)
      arguments := some ⟨"int".toList, .of_plain (forall_of_all (by decide)), forall_of_all (by decide)⟩ }
  other := by decide
  gap := oneSpace
  name := ⟨'x', ['s'], by decide, forall_of_all (by decide)⟩

def nameParameter (array : Bool) : Parameter where
  known := by simp
  type := { base := .of "string".toList (by decide), array, question := !array }
  other := (by decide : String.ofList "string".toList ∉ parameterModifiers)
  gap := oneSpace
  name := ⟨'n', "ame".toList, by decide, forall_of_all (by decide)⟩
  default := some
    { text := "null".toList
      filled := by decide
      trimmed := by decide
      balanced := .of_plain (forall_of_all (by decide))
      passes := .free (forall_of_all (by decide))
      whole := forall_of_all (by decide) }

/-- `public int? Load([FromQuery] in List<int> xs, string? name = null) {`, or the same with an array of names. -/
def loadDeclaration (array : Bool) : Declaration where
  type := { base := .of "int".toList (by decide), question := true }
  otherType := by decide
  name := ⟨'L', "oad".toList, by decide, forall_of_all (by decide)⟩
  otherName := by decide
  parameters := [{ item := queryParameter }, { front := [' '], item := nameParameter array, frontSpace := isSpace_space }]

theorem signatures_parameters_load :
    signatures "A.cs" "public int? Load([FromQuery] in List<int> xs, string? name = null) \x7b".toList =
      .ok [{ name := "Load"
             parameters := [⟨"xs", "List<int>"⟩, ⟨"name", "string?"⟩]
             results := [⟨"int?", ""⟩]
             file := "A.cs"
             line := 1
             visibility := .pub }] ∧
    ∃ xs, signatures "A.cs" "public int? Load([FromQuery] in List<int> xs, string[] name = null) \x7b".toList =
      .ok [{ (loadDeclaration true).signature "A.cs" with parameters := xs }] ∧
      xs ≠ [⟨"xs", "List<int>"⟩, ⟨"name", "string[]"⟩] := by
  obtain ⟨read, kept⟩ := signatures_parameters "A.cs" (loadDeclaration false)
  obtain ⟨readArray, keptArray⟩ := signatures_parameters "A.cs" (loadDeclaration true)
  have single : ∀ x ∈ (loadDeclaration false).parameters,
      '[' ∉ x.item.type.text ∧ Text.joinWith [' '] (Text.words x.item.type.text) = x.item.type.text := by decide
  have bracket : ¬ ∀ x ∈ (loadDeclaration true).parameters, x.item.type.Kept := fun all =>
    absurd (all _ (List.mem_cons_of_mem _ (List.mem_singleton_self _))).1 (by decide)
  have line : (loadDeclaration false).line =
      "public int? Load([FromQuery] in List<int> xs, string? name = null) \x7b".toList := by decide +kernel
  have lineArray : (loadDeclaration true).line =
      "public int? Load([FromQuery] in List<int> xs, string[] name = null) \x7b".toList := by decide +kernel
  rw [line, kept.2 single] at read
  rw [lineArray] at readArray
  exact ⟨read, _, readArray, fun same => bracket (keptArray.1 same)⟩

end Drift.Source.CSharp
