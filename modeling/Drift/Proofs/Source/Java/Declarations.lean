import Drift.Proofs.Source.Java.Parameters
import Drift.Proofs.Source.Scan

namespace Drift.Source.Java

open Recognizer

/-- A declaration with a visibility or without, any modifiers, a result type, a name and parameters. -/
structure Declaration where
  visibility : Visibility := .package
  modifiers : List String := []
  known : ∀ m ∈ modifiers, m ∈ methodModifiers
  type : TypeText
  name : DollarName
  other : String.ofList name.text ∉ reservedWords
  parameters : List (Padded Parameter)

namespace Declaration

variable (d : Declaration)

def visibilityWord : Option String := if d.visibility = .package then none else some d.visibility.name

def visibilityText : List Char :=
  match d.visibilityWord with
  | none => []
  | some w => w.toList ++ [' ']

def parameterText : List Char := listed Parameter.text d.parameters

def naming : List Char := arrays d.type.dimensions ++ ' ' :: d.name.text

def behindName : List Char := d.parameterText ++ ')' :: " \x7b".toList

def behindVisibility : List Char :=
  spaced d.modifiers ++ (d.type.toApplied.text ++ (d.naming ++ '(' :: d.behindName))

def line : List Char := d.visibilityText ++ d.behindVisibility

def signature (file : String) : Signature where
  name := String.ofList d.name.text
  parameters := d.parameters.map (·.item.declared)
  results := if d.type.text = "void".toList then [] else [result d.type.text []]
  file
  line := 1
  visibility := d.visibility

end Declaration

def behindType (visibility : Option String) (base : List Char) : Recognizer Method := do
  let marks ← arrayMarks
  gap1
  let x ← char fun c => c.isAlpha || c == '_' || c == '$'
  let r ← run isDollarWord
  gap
  sign '('
  let rest ← remainder
  return { visibility, type := base ++ marks, name := x :: r, rest }

theorem behindType_toParen (visibility : Option String) (base : List Char) : (behindType visibility base).ToParen := by
  have blank : ∀ x, Text.isBlank x = true → ToParen.Plain x := fun x fits =>
    ⟨Text.ne_of_class fits (by decide), Text.ne_of_class fits (by decide)⟩
  have word : ∀ x, isDollarWord x = true → ToParen.Plain x := fun x fits =>
    ⟨Text.ne_of_class fits (by decide), Text.ne_of_class fits (by decide)⟩
  have letter : ∀ x : Char, (x.isAlpha || x == '_' || x == '$') = true → ToParen.Plain x := fun x fits =>
    ⟨Text.ne_of_class (p := fun x : Char => x.isAlpha || x == '_' || x == '$') fits (by decide),
      Text.ne_of_class (p := fun x : Char => x.isAlpha || x == '_' || x == '$') fits (by decide)⟩
  refine .span (.spanned (.repeated (.word ?_))) fun marks => ?_
  · exact fun x mem => ⟨by rintro rfl; exact absurd mem (by decide), by rintro rfl; exact absurd mem (by decide)⟩
  refine .span (.gap1 blank) fun _ => .span (.char letter) fun x => .span (.run word) fun r => ?_
  exact .span (.gap blank) fun _ => .paren

theorem arrayMarks_arrays (n : Nat) (b : Option Char) {t : List Char} (stop : ∀ c ∈ t.head?, c ≠ '[') :
    ∃ b', arrayMarks.Prefers ⟨b, arrays n ++ t⟩ (arrays n) ⟨b', t⟩ := by
  have chain : ∀ b, ∃ b', Chain (word "[]") ⟨b, arrays n ++ t⟩ ⟨b', t⟩ := by
    induction n with
    | zero =>
      intro b
      refine ⟨b, .done (.text ?_)⟩
      rintro ⟨u, shape⟩
      have front : "[]".toList ++ u = t := shape
      exact stop '[' (by rw [← front]; rfl) rfl
    | succ n ih =>
      intro b
      obtain ⟨b', rest⟩ := ih (some ']')
      have mark : (word "[]").Prefers ⟨b, "[]".toList ++ (arrays n ++ t)⟩ () ⟨some ']', arrays n ++ t⟩ := Reads.word.prefers
      exact ⟨b', .piece mark (by simp [arrays]) rest⟩
  obtain ⟨b', chain⟩ := chain b
  exact ⟨b', .spanned (.repeated chain)⟩

def visibilityWords : List String := ["public", "private", "protected"]

theorem visibilityWords_apart : visibilityWords.Pairwise Apart := by decide +kernel

theorem visibilityWords_letters : ∀ w ∈ visibilityWords, ∀ c ∈ w.toList, isTypeChar c = true :=
  forall_inner_of_all (by decide)

theorem methodModifiers_apart : methodModifiers.Pairwise Apart := by decide +kernel

theorem methodModifiers_letters : ∀ m ∈ methodModifiers, ∀ c ∈ m.toList, isTypeChar c = true :=
  forall_inner_of_all (by decide)

namespace Declaration

variable (d : Declaration)

theorem visibilityWord_cases : d.visibilityWord = none ∨ ∃ w ∈ visibilityWords, d.visibilityWord = some w := by
  rw [visibilityWord]
  cases d.visibility <;> decide

theorem exists_base (u : List Char) : ∃ v, d.type.toApplied.text ++ (d.naming ++ u) = d.type.base.text ++ v ∧
    ∀ c ∈ v.head?, isTypeChar c = false := by
  obtain ⟨v, shape, head⟩ := d.type.exists_behind (' ' :: (d.name.text ++ u))
  refine ⟨v, ?_, fun c mem => ?_⟩
  · rw [← shape]
    simp [TypeText.text, naming]
  · rcases head c mem with rfl | rfl | space
    · decide
    · decide
    · cases space
      decide

/-- The name of the result type is none of the words in front of a declaration. -/
theorem refuses_base {ws : List String} (chars : ∀ w ∈ ws, ∀ x ∈ w.toList, isTypeChar x = true)
    (reserved : ∀ w ∈ ws, w ∈ reservedWords ++ methodModifiers) (b : Option Char) (u : List Char) :
    (do let v ← oneOf ws; gap1; return v : Recognizer String).Refuses ⟨b, d.type.toApplied.text ++ (d.naming ++ u)⟩ := by
  obtain ⟨v, shape, stop⟩ := d.exists_base u
  rw [shape]
  exact .word_gap (fun _ => Text.class_of_isBlank fun _ => isBlank_of_isTypeChar) d.type.base.fits stop chars fun mem =>
    absurd (reserved _ mem) d.type.other

theorem head_behindVisibility : ∀ c ∈ d.behindVisibility.head?, isTypeChar c = true := by
  have filled : ∀ m ∈ methodModifiers, m.toList ≠ [] := by decide
  rw [behindVisibility]
  cases mods : d.modifiers with
  | nil =>
    obtain ⟨v, shape, -⟩ := d.exists_base ('(' :: d.behindName)
    obtain ⟨x, w, base⟩ := List.exists_cons_of_ne_nil d.type.base.nonempty
    have first : isTypeChar x = true := d.type.base.fits x (by simp [base])
    simpa [spaced, shape, base] using first
  | cons m ms =>
    have mem : m ∈ methodModifiers := d.known m (by simp [mods])
    obtain ⟨x, w, word⟩ := List.exists_cons_of_ne_nil (filled m mem)
    have first : isTypeChar x = true := methodModifiers_letters m mem x (by simp [word])
    simpa [spaced, word] using first

theorem head_line : ∀ c ∈ d.line.head?, isTypeChar c = true := by
  rw [line, visibilityText]
  rcases d.visibilityWord_cases with written | ⟨w, mem, written⟩ <;> rw [written]
  · exact d.head_behindVisibility
  · have filled : ∀ w ∈ visibilityWords, w.toList ≠ [] := by decide
    obtain ⟨x, rest, word⟩ := List.exists_cons_of_ne_nil (filled w mem)
    have fits : isTypeChar x = true := visibilityWords_letters w mem x (by simp [word])
    simpa [word] using fits

/-- Without a visibility none is read: a modifier follows, or the result type. -/
theorem visibility_line : ∃ b, (optional do let v ← oneOf visibilityWords; gap1; return v).Prefers (.start d.line)
    d.visibilityWord ⟨b, d.behindVisibility⟩ := by
  have stop : ∀ c ∈ d.behindVisibility.head?, Text.isBlank c = false := fun c mem =>
    isBlank_of_isTypeChar (d.head_behindVisibility c mem)
  rw [line, visibilityText]
  rcases d.visibilityWord_cases with written | ⟨w, mem, written⟩ <;> rw [written]
  · have refused : (do let v ← oneOf visibilityWords; gap1; return v : Recognizer String).Refuses
        ⟨none, d.behindVisibility⟩ := by
      rw [behindVisibility]
      cases mods : d.modifiers with
      | nil => exact d.refuses_base visibilityWords_letters (by decide) none ('(' :: d.behindName)
      | cons m ms =>
        have apart : ∀ m ∈ methodModifiers, String.ofList m.toList ∉ visibilityWords := by decide
        have mem : m ∈ methodModifiers := d.known m (by simp [mods])
        have front : spaced (m :: ms) = m.toList ++ ' ' :: spaced ms := by simp [spaced]
        rw [front, List.append_assoc]
        refine .word_gap (fun _ => Text.class_of_isBlank fun _ => isBlank_of_isTypeChar) (methodModifiers_letters m mem) ?_
          visibilityWords_letters fun known => absurd known (apart m mem)
        rintro _ ⟨⟩
        decide
    exact ⟨none, (Reads.optional_none refused).prefers⟩
  · refine ⟨some ' ', .optional_some ?_⟩
    rw [Cursor.start, List.append_assoc]
    apply Prefers.after (.oneOf visibilityWords_apart mem)
    apply Prefers.after (.gap1 (w := [' ']) (by simp) Text.isBlank_space stop)
    exact Reads.pure.prefers

theorem naming_free : '(' ∉ d.naming := by
  rw [naming, List.mem_append, List.mem_cons, not_or, not_or]
  refine ⟨fun mem => ?_, by decide, fun mem => ?_⟩
  · rcases mem_arrays mem with same | same <;> cases same
  · exact Text.ne_of_class (d.name.isDollarWord _ mem) (x := '(') (by decide) rfl

theorem naming_visible : ∃ c ∈ d.naming, Text.isBlank c = false :=
  ⟨d.name.first, by simp [naming, DollarName.text], d.name.isBlank _ (by simp [DollarName.text])⟩

theorem naming_head : ∀ c ∈ (d.naming ++ '(' :: d.behindName).head?, isTypeChar c = false ∧ c ≠ '<' := by
  rw [naming]
  cases d.type.dimensions with
  | zero =>
    rintro _ ⟨⟩
    decide
  | succ n =>
    rintro _ ⟨⟩
    decide

theorem behindType_naming (b : Option Char) (visibility : Option String) :
    ∃ c, (behindType visibility d.type.toApplied.text).Prefers ⟨b, d.naming ++ '(' :: d.behindName⟩
      { visibility, type := d.type.text, name := d.name.text, rest := d.behindName } c := by
  obtain ⟨b', marks⟩ := arrayMarks_arrays d.type.dimensions b (t := ' ' :: (d.name.text ++ '(' :: d.behindName))
    (by rintro _ ⟨⟩; decide)
  have letter : ((fun c : Char => c.isAlpha || c == '_' || c == '$') d.name.first) = true := by
    have fits := d.name.letter
    rwa [isDollarLetter, isLetter] at fits
  refine ⟨⟨d.behindName.getLast? <|> some '(', []⟩, ?_⟩
  rw [naming, List.append_assoc, List.cons_append]
  apply Prefers.bind marks
  apply Prefers.after (.gap1_space (d.name.isBlank _ (by simp [DollarName.text])))
  apply Prefers.after (.char letter)
  apply Prefers.after (.run d.name.word (by simp; decide))
  apply Prefers.after (.gap_none (by decide))
  apply Prefers.after .sign
  apply Prefers.after .remainder
  exact Reads.pure.prefers

theorem methodHead_line : methodHead.atStart d.line =
    some { visibility := d.visibilityWord, type := d.type.text, name := d.name.text, rest := d.behindName } := by
  have blank : ∀ c ∈ d.line.head?, Text.isBlank c = false := fun c mem => isBlank_of_isTypeChar (d.head_line c mem)
  have noMark : methodMark.Refuses (.start d.line) := by
    refine .bind ?_
    cases shape : d.line with
    | nil => exact .skip .char_nil
    | cons x t => exact .sign (Text.ne_of_class (d.head_line x (by simp [shape])) (by decide))
  have noWords : ∀ b, (do skip (oneOf methodModifiers); gap1 : Recognizer Unit).Refuses
      ⟨b, d.type.toApplied.text ++ (d.naming ++ '(' :: d.behindName)⟩ := fun b =>
    .keyword_gap (d.refuses_base methodModifiers_letters (by decide) b _)
  obtain ⟨v, shape, -⟩ := d.exists_base ('(' :: d.behindName)
  obtain ⟨x, w, base⟩ := List.exists_cons_of_ne_nil d.type.base.nonempty
  have first : isTypeChar x = true := d.type.base.fits x (by simp [base])
  have front : d.type.toApplied.text ++ (d.naming ++ '(' :: d.behindName) = x :: (w ++ v) := by rw [shape, base]; rfl
  obtain ⟨b, visibility⟩ := d.visibility_line
  obtain ⟨b', modifiers⟩ := Prefers.keywords (t := d.type.toApplied.text ++ (d.naming ++ '(' :: d.behindName))
    methodModifiers_apart (by decide) d.known (by rw [front]; rintro _ ⟨⟩; exact isBlank_of_isTypeChar first) noWords b
  have parameters : (do sign '<'; skip (run1 (isNot '>')); sign '>'; gap1 : Recognizer Unit).Refuses
      ⟨b', d.type.toApplied.text ++ (d.naming ++ '(' :: d.behindName)⟩ := by
    rw [front]
    exact .bind (.sign (Text.ne_of_class first (by decide)))
  obtain ⟨c, type⟩ := d.type.prefers (b := b') (by decide) (behindType_toParen d.visibilityWord) d.naming_free
    d.naming_visible d.naming_head fun b => d.behindType_naming b d.visibilityWord
  apply Prefers.atStart
  apply Prefers.after (.gap (w := []) Text.isBlank_nil blank)
  apply Prefers.bind (.repeated (.done noMark))
  apply Prefers.bind visibility
  apply Prefers.bind modifiers
  apply Prefers.after (.skip (.optional_none parameters))
  exact type

/-- No type is one of the words that a declaration does not start with: behind its name stand brackets if anything. -/
theorem type_other : String.ofList d.type.text ∉ reservedWords := by
  obtain ⟨v, shape, head⟩ := d.type.exists_behind []
  rw [List.append_nil] at shape
  have stop : ∀ c ∈ v.head?, isTypeChar c = false := by
    intro c mem
    rcases head c mem with rfl | rfl | none
    · decide
    · decide
    · cases none
  exact d.type.text_not_mem shape stop (forall_inner_of_all (by decide)) fun mem => d.type.other (List.mem_append_left _ mem)

theorem method_line : method? d.line =
    some { visibility := d.visibilityWord, type := d.type.text, name := d.name.text, rest := d.behindName } := by
  simp [method?, d.methodHead_line, d.type_other, d.other]

theorem whole_line : ∀ c ∈ d.line, Text.isLineBreak c = false := by
  have word : ∀ c, isTypeChar c = true → Text.isLineBreak c = false := fun c fits =>
    Text.isLineBreak_of_not_blank (isBlank_of_isTypeChar fits)
  have visibility : ∀ c ∈ d.visibilityText, Text.isLineBreak c = false := by
    rw [visibilityText]
    rcases d.visibilityWord_cases with written | ⟨w, mem, written⟩ <;> rw [written]
    · simp
    · exact List.forall_mem_append.2 ⟨fun c written => word c (visibilityWords_letters w mem c written), forall_of_all (by decide)⟩
  have modifiers : ∀ c ∈ spaced d.modifiers, Text.isLineBreak c = false :=
    forall_spaced (fun m written c mem => word c (methodModifiers_letters m (d.known m written) c mem)) (by decide)
  have type : ∀ c ∈ d.type.text, Text.isLineBreak c = false := fun c mem => isLineBreak_of_isTypeSign (d.type.signs c mem)
  obtain ⟨applied, marks⟩ := List.forall_mem_append.1 type
  have name : ∀ c ∈ d.name.text, Text.isLineBreak c = false := fun c mem =>
    Text.isLineBreak_of_not_blank (d.name.isBlank c mem)
  have parameters : ∀ c ∈ d.parameterText, Text.isLineBreak c = false :=
    forall_listed (by decide) (fun _ => isLineBreak_of_isSpace) fun x _ => x.item.isTypedPart.whole
  have brace : ∀ c ∈ " \x7b".toList, Text.isLineBreak c = false := forall_of_all (by decide)
  have naming : ∀ c ∈ d.naming, Text.isLineBreak c = false :=
    List.forall_mem_append.2 ⟨marks, List.forall_mem_cons.2 ⟨by decide, name⟩⟩
  have behindName : ∀ c ∈ d.behindName, Text.isLineBreak c = false :=
    List.forall_mem_append.2 ⟨parameters, List.forall_mem_cons.2 ⟨by decide, brace⟩⟩
  have behindModifiers : ∀ c ∈ d.type.toApplied.text ++ (d.naming ++ '(' :: d.behindName), Text.isLineBreak c = false :=
    List.forall_mem_append.2 ⟨applied, List.forall_mem_append.2 ⟨naming, List.forall_mem_cons.2 ⟨by decide, behindName⟩⟩⟩
  exact List.forall_mem_append.2 ⟨visibility, List.forall_mem_append.2 ⟨modifiers, behindModifiers⟩⟩

end Declaration

theorem parameters_listed (xs : List (Padded Parameter)) :
    parameters (listed Parameter.text xs) = xs.map (·.item.declared) := by
  rw [parameters, splitParams_typed fun x _ => x.item.isTypedPart, List.filterMap_map]
  refine List.filterMap_eq_map_iff_forall_eq_some.2 fun x _ => ?_
  rw [Function.comp_apply, x.item.parameterOf_text]

/-- On the line of a declaration one signature is read, the one it writes down. -/
theorem signatures_method (file : String) (d : Declaration) : signatures file d.line = [d.signature file] := by
  have filled : d.line ≠ [] := by simp [Declaration.line, Declaration.behindVisibility]
  have read : signatures file d.line = lineSignatures file 1 d.line := eachLine_line filled d.whole_line
  have passes : Passes 1 1 d.parameterText := passes_listed fun x _ => x.item.passes
  have cut : enclosed? d.behindName = some (d.parameterText, " \x7b".toList) := enclosed_eq_some_iff.2 ⟨rfl, passes⟩
  have visibility : (d.visibilityWord.bind Visibility.ofName?).getD .package = d.visibility := by
    rw [Declaration.visibilityWord]
    cases d.visibility <;> decide
  have inside : parameters d.parameterText = d.parameters.map (·.item.declared) := parameters_listed d.parameters
  rw [read, lineSignatures, d.method_line]
  simp only [cut, visibility, Option.toList_some, List.map_cons, inside]
  rfl

def tableType : TypeText where
  base := .of "Map".toList (by decide)
  arguments := some
    { text := "String, int".toList ++ "[]".toList
      balanced := .append (.of_plain (forall_of_all (by decide))) (.pair (by decide) .nil)
      signs := forall_of_all (by decide) }
  other := by decide

def boundedType : TypeText where
  base := .of "Set".toList (by decide)
  arguments := some
    { text := "? extends T".toList
      balanced := .of_plain (forall_of_all (by decide))
      signs := forall_of_all (by decide) }
  other := by decide

def sizeNote : Note where
  name := .of "Size".toList (by decide)
  arguments := some
    { text := "max = 3".toList
      balanced := .of_plain (forall_of_all (by decide))
      free := forall_of_all (by decide)
      whole := forall_of_all (by decide) }
  gap := oneSpace

/-- `static Map<String, int[]> find(@Size(max = 3) final Set<? extends T> xs, int... n) {`. -/
def findDeclaration : Declaration where
  modifiers := ["static"]
  known := by decide
  type := tableType
  name := ⟨'f', "ind".toList, by decide, forall_of_all (by decide)⟩
  other := by decide
  parameters :=
    [{ item :=
         { notes := [sizeNote]
           isFinal := true
           type := boundedType
           single := by decide
           gap := oneSpace
           name := ⟨'x', ['s'], by decide, forall_of_all (by decide)⟩ } },
      { front := [' ']
        item :=
          { type := { base := .of "int".toList (by decide), other := by decide }
            variadic := true
            single := by decide
            gap := oneSpace
            name := ⟨'n', [], by decide, forall_of_all (by decide)⟩ }
        frontSpace := isSpace_space }]

theorem signatures_method_find :
    signatures "A.java" "static Map<String, int[]> find(@Size(max = 3) final Set<? extends T> xs, int... n) \x7b".toList =
      [{ name := "find"
         parameters := [⟨"xs", "Set<? extends T>"⟩, ⟨"n", "int..."⟩]
         results := [⟨"Map<String, int[]>", ""⟩]
         file := "A.java"
         line := 1
         visibility := .package }] := by
  have line : findDeclaration.line =
      "static Map<String, int[]> find(@Size(max = 3) final Set<? extends T> xs, int... n) \x7b".toList := by decide +kernel
  rw [← line]
  exact signatures_method "A.java" findDeclaration

end Drift.Source.Java
