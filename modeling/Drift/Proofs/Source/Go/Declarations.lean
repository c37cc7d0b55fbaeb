import Drift.Proofs.Source.Go.Head
import Drift.Proofs.Source.Go.Results
import Drift.Proofs.Source.Parts

namespace Drift.Source.Go

open Recognizer

structure TypeText where
  text : List Char
  part : IsPart text
  bare : ∀ c ∈ text, isQuote c = false

structure Unnamed extends TypeText where
  nameless : ∀ (n : Identifier) (b : Char) (rest : List Char), text = n.text ++ b :: rest → Text.isBlank b = true →
    String.ofList n.text ∈ typeWords

def TypeText.word (t : TypeText) (word : ∀ c ∈ t.text, Text.isBlank c = false) : Unnamed where
  toTypeText := t
  nameless n b rest shape blank := by
    rw [word b (by simp [shape])] at blank
    cases blank

structure FieldName extends Identifier where
  other : String.ofList toIdentifier.text ∉ typeWords

structure Typed where
  name : FieldName
  gap : Text.Run isSpace
  type : TypeText

inductive Part where
  | bare (name : FieldName)
  | typed (x : Typed)
  | unnamed (type : Unnamed)

namespace Part

def text : Part → List Char
  | bare name => name.text
  | typed x => x.name.text ++ (x.gap.text ++ x.type.text)
  | unnamed type => type.text

def field : Part → List Char × List Char
  | bare name => ([], name.text)
  | typed x => (x.name.text, x.type.text)
  | unnamed type => ([], type.text)

theorem isPart (p : Part) : IsPart p.text := by
  have unbroken : ∀ n : FieldName, ∀ c ∈ n.text, Text.isLineBreak c = false := fun n c mem =>
    Text.isLineBreak_of_isWord (n.isWord c mem)
  cases p with
  | bare n =>
    have blank : ∀ c ∈ n.text, Text.isBlank c = false := fun c mem => Text.isBlank_of_isWord (n.isWord c mem)
    exact ⟨by simp [text, Identifier.text],
      Text.trim_eq_self (fun c mem => blank c (List.mem_of_mem_head? mem)) fun c mem => blank c (List.mem_of_getLast? mem),
      closed_word n.isWord, unbroken n⟩
  | typed x =>
    refine ⟨by simp [text, Identifier.text], ?_,
      (closed_word x.name.isWord).append ((closed_space x.gap.fits).append x.type.part.closed), ?_⟩
    · rw [text, ← List.append_assoc]
      exact Text.trim_ending (Text.isBlank_of_isWord (isWord_of_isLetter x.name.letter)) x.type.part.filled
        (Text.trim_eq_self_iff.1 x.type.part.trimmed).2
    · intro c mem
      rw [text, List.mem_append, List.mem_append] at mem
      rcases mem with mem | mem | mem
      · exact unbroken x.name c mem
      · exact isLineBreak_of_isSpace (x.gap.fits c mem)
      · exact x.type.part.whole c mem
  | unnamed type => exact type.part

theorem noQuote (p : Part) : ∀ c ∈ p.text, isQuote c = false := by
  have name : ∀ n : FieldName, ∀ c ∈ n.text, isQuote c = false := fun n c mem => (plain_of_isWord (n.isWord c mem)).2.1
  cases p with
  | bare n => exact name n
  | typed x =>
    intro c mem
    rw [text, List.mem_append, List.mem_append] at mem
    rcases mem with mem | mem | mem
    · exact name x.name c mem
    · exact (plain_of_isSpace (x.gap.fits c mem)).2.1
    · exact x.type.bare c mem
  | unnamed type => exact type.bare

/-- A part is read as what it is: a name alone and a type alone are not told apart here. -/
theorem field_text (p : Part) : Go.field p.text = p.field := by
  have head : ∀ c ∈ p.text.head?, Text.isBlank c = false := (Text.trim_eq_self_iff.1 p.isPart.trimmed).1
  cases p with
  | bare n =>
    -- a name has no blank, so there is no first word to look at
    have alone : Text.headWord? n.text = none := by
      rw [Option.eq_none_iff_forall_ne_some]
      rintro ⟨w, rest⟩ parted
      obtain ⟨gap, shape, -⟩ : ∃ gap : Text.Run Text.isBlank, n.text = w ++ (gap.text ++ rest) ∧ _ :=
        (Text.headWord_eq_some_iff head).1 parted
      obtain ⟨b, t, blanks⟩ := List.exists_cons_of_ne_nil gap.nonempty
      have word := n.isWord b (by simp [shape, blanks])
      rw [Text.isWord_of_isBlank (gap.fits b (by simp [blanks]))] at word
      cases word
    rw [Go.field, text, alone]
    rfl
  | typed x =>
    have parted : Text.headWord? (text (typed x)) = some (x.name.text, x.type.text) := by
      refine (Text.headWord_eq_some_iff head).2 ⟨⟨x.gap.text, x.gap.nonempty, ?_⟩, rfl, ?_, x.type.part.filled, ?_⟩
      · exact fun c mem => isBlank_of_isSpace (x.gap.fits c mem)
      · exact fun c mem => Text.isBlank_of_isWord (x.name.isWord c mem)
      · exact (Text.trim_eq_self_iff.1 x.type.part.trimmed).1
    have named : isIdentifier x.name.text = true := isIdentifier_iff.2 ⟨x.name.toIdentifier, rfl⟩
    rw [Go.field, parted]
    simp [x.name.other, named, x.type.part.trimmed, field]
  | unnamed type =>
    rw [Go.field]
    cases parted : Text.headWord? (text (unnamed type)) with
    | none => rfl
    | some pair =>
      obtain ⟨w, rest⟩ := pair
      obtain ⟨gap, shape, -⟩ := (Text.headWord_eq_some_iff head).1 parted
      obtain ⟨b, t, blanks⟩ := List.exists_cons_of_ne_nil gap.nonempty
      have noName : (!typeWords.contains (String.ofList w) && isIdentifier w) = false := by
        rw [Bool.eq_false_iff]
        intro looks
        simp only [Bool.and_eq_true, Bool.not_eq_true', List.contains_eq_mem, decide_eq_false_iff_not] at looks
        obtain ⟨n, rfl⟩ := isIdentifier_iff.1 looks.2
        exact looks.1 (type.nameless n b (t ++ rest) (by simpa [blanks, text] using shape) (gap.fits b (by simp [blanks])))
      simp only [noName, Bool.false_eq_true, if_false]
      rfl

end Part

structure Group where
  earlier : List (Padded FieldName)
  last : Padded Typed

namespace Group

def type (g : Group) : List Char := g.last.item.type.text

def parts (g : Group) : List (Padded Part) := g.earlier.map (Padded.map .bare) ++ [g.last.map .typed]

def fields (g : Group) : List (List Char × List Char) :=
  (g.earlier.map (·.item) ++ [g.last.item.name]).map fun name => (name.text, g.type)

end Group

inductive FieldList where
  | named (groups : List Group)
  | unnamed (types : List (Padded Unnamed))

namespace FieldList

def parts : FieldList → List (Padded Part)
  | named groups => groups.flatMap Group.parts
  | unnamed types => types.map (Padded.map .unnamed)

def text (l : FieldList) : List Char := listed Part.text l.parts

def declared : FieldList → List (List Char × List Char)
  | named groups => groups.flatMap Group.fields
  | unnamed types => types.map fun t => ([], t.item.text)

end FieldList

/-- The names in front of a type take it, whatever is handed on from the right. -/
theorem groupNames_group (g : Group) (rest : List (List Char × List Char)) :
    groupNames (g.parts.map (·.item.field) ++ rest) = (g.fields ++ (groupNames rest).1, g.type) := by
  obtain ⟨earlier, last⟩ := g
  -- the fields are read from the right: each name takes the type that the rest hands on, and hands it on itself
  induction earlier with
  | nil => rfl
  | cons x earlier ih =>
    have filled : last.item.type.text ≠ [] := last.item.type.part.filled
    have named : isIdentifier x.item.text = true := isIdentifier_iff.2 ⟨x.item.toIdentifier, rfl⟩
    simp only [Group.parts, List.map_cons, List.cons_append] at ih ⊢
    rw [groupNames, ih]
    simp [Padded.map, Part.field, Group.type, Group.fields, filled, named]

theorem groupNames_groups (groups : List Group) :
    (groupNames ((groups.flatMap Group.parts).map (·.item.field))).1 = groups.flatMap Group.fields := by
  induction groups with
  | nil => rfl
  | cons g groups ih => rw [List.flatMap_cons, List.map_append, groupNames_group, ih, List.flatMap_cons]

theorem groupNames_unnamed (types : List (List Char)) :
    groupNames (types.map fun t => ([], t)) = (types.map fun t => ([], t), []) := by
  induction types with
  | nil => rfl
  | cons t types ih => rw [List.map_cons, groupNames, ih]; rfl

theorem fields_text (l : FieldList) : fields l.text = l.declared := by
  have parts : (splitParams plainBrackets l.text).map field = l.parts.map (·.item.field) := by
    rw [FieldList.text, splitParams_listed fun x _ => x.item.isPart, List.map_map]
    exact List.map_congr_left fun x _ => x.item.field_text
  rw [fields, parts]
  cases l with
  | named groups => exact groupNames_groups groups
  | unnamed types =>
    have alone := groupNames_unnamed (types.map (·.item.text))
    rw [List.map_map] at alone
    rw [FieldList.parts, List.map_map]
    exact congrArg Prod.fst alone

theorem whole_text (l : FieldList) : ∀ c ∈ l.text, Text.isLineBreak c = false := whole_listed fun x _ => x.item.isPart

theorem passes_text (l : FieldList) : Passes 1 1 l.text :=
  (closed_listed fun x _ => x.item.isPart).passes
    (forall_listed (by decide) (fun _ space => (plain_of_isSpace space).2.1) fun x _ => x.item.noQuote) (by decide)

inductive Results where
  | none
  | single (type : TypeText) (other : type.text.head? ≠ some '(')
  | listed (l : FieldList)

namespace Results

def text : Results → List Char
  | none => []
  | single type _ => ' ' :: type.text
  | listed l => " (".toList ++ (l.text ++ [')'])

def declared : Results → List (List Char × List Char)
  | none => []
  | single type _ => [([], type.text)]
  | listed l => l.declared

end Results

theorem results_text (r : Results) :
    results (r.text ++ " \x7b".toList) = r.declared.map fun (fieldName, type) => result type fieldName := by
  rw [results_eq, resultText_open]
  cases r with
  | none => rfl
  | single type other =>
    have trimmed : Text.trim (' ' :: type.text) = type.text :=
      (Text.trim_blank_append Text.isBlank_space).trans type.part.trimmed
    rw [Results.text, trimmed]
    refine readResults_single type.part.filled fun inside shape _ => other ?_
    rw [shape]
    rfl
  | listed l =>
    have trimmed : Text.trim (" (".toList ++ (l.text ++ [')'])) = '(' :: (l.text ++ [')']) :=
      (Text.trim_blank_append Text.isBlank_space).trans (Text.trim_ending (by decide) (by simp) (by simp; decide))
    rw [Results.text, trimmed, readResults_enclosed (passes_text l), fields_text]
    rfl

structure Receiver where
  text : List Char
  free : ')' ∉ text
  whole : ∀ c ∈ text, Text.isLineBreak c = false

structure Declaration where
  receiver : Option Receiver := none
  name : Identifier
  parameters : FieldList
  results : Results

namespace Declaration

def receiverText (d : Declaration) : List Char :=
  match d.receiver with
  | none => []
  | some r => '(' :: (r.text ++ ") ".toList)

def line (d : Declaration) : List Char :=
  "func ".toList ++ (d.receiverText ++ (d.name.text ++ '(' :: (d.parameters.text ++ ')' ::
    (d.results.text ++ " \x7b".toList))))

def signature (file : String) (d : Declaration) : Signature where
  name := String.ofList d.name.text
  parameters := d.parameters.declared.map fun (fieldName, type) => parameter fieldName type
  results := d.results.declared.map fun (fieldName, type) => result type fieldName
  file
  line := 1
  visibility := if d.name.first.isUpper then .pub else .priv

def head (d : Declaration) : Head where
  blanks := .space
  receiver := d.receiver.map fun r => { inside := r.text, free := r.free, blanks := [' '], blank := Text.isBlank_space }
  name := d.name

end Declaration

theorem whole_line (d : Declaration) : ∀ c ∈ d.line, Text.isLineBreak c = false := by
  have name : ∀ c ∈ d.name.text, Text.isLineBreak c = false := fun c mem =>
    Text.isLineBreak_of_isWord (d.name.isWord c mem)
  have receiver : ∀ c ∈ d.receiverText, Text.isLineBreak c = false := by
    rw [Declaration.receiverText]
    cases d.receiver with
    | none => simp
    | some r =>
      simp only [List.forall_mem_cons, List.forall_mem_append]
      exact ⟨by decide, r.whole, forall_of_all (by decide)⟩
  have results : ∀ c ∈ d.results.text, Text.isLineBreak c = false := by
    cases d.results with
    | none => simp [Results.text]
    | single type other =>
      simp only [Results.text, List.forall_mem_cons]
      exact ⟨by decide, type.part.whole⟩
    | listed l =>
      simp only [Results.text, List.forall_mem_append]
      exact ⟨forall_of_all (by decide), whole_text l, forall_of_all (by decide)⟩
  simp only [Declaration.line, List.forall_mem_append, List.forall_mem_cons]
  exact ⟨forall_of_all (by decide), receiver, name, by decide, whole_text d.parameters, by decide, results,
    forall_of_all (by decide)⟩

/-- On the line of a declaration one signature is read, the one it writes down, if the line names no test. -/
theorem signatures_declaration (file : String) (d : Declaration) (untested : Untested d.line) :
    signatures file d.line = [d.signature file] := by
  have trimmed : Text.trim d.line = d.line :=
    Text.trim_eq_self (by simp [Declaration.line]; decide)
      (by simp [Declaration.line, List.getLast?_append, List.getLast?_cons]; decide)
  rw [signatures_line file (by simp [Declaration.line]) (whole_line d), lineSignatures_eq_singleton_iff, trimmed]
  refine ⟨untested, d.head, d.parameters.text, d.results.text ++ " \x7b".toList, ?_, passes_text d.parameters, ?_⟩
  · obtain ⟨receiver, name, parameters, results⟩ := d
    cases receiver <;>
      simp [Declaration.line, Declaration.receiverText, Declaration.head, Head.text, Text.Run.space, Aside.textIfAny, Aside.text]
  · rw [Go.declared, fields_text, results_text]
    rfl

def tableType : TypeText where
  text := "map".toList ++ '[' :: ("string".toList ++ ']' :: "int".toList)
  part :=
    { filled := by decide
      trimmed := by decide
      closed := .append (.of_plain (forall_of_all (by decide)))
        (.group (by decide) (.of_plain (forall_of_all (by decide))) (.of_plain (forall_of_all (by decide))))
      whole := forall_of_all (by decide) }
  bare := forall_of_all (by decide)

def intType : TypeText where
  text := "int".toList
  part :=
    { filled := by decide
      trimmed := by decide
      closed := .of_plain (forall_of_all (by decide))
      whole := forall_of_all (by decide) }
  bare := forall_of_all (by decide)

def findDeclaration : Declaration where
  receiver := some ⟨"s *Store".toList, by decide, forall_of_all (by decide)⟩
  name := ⟨'F', "ind".toList, by decide, forall_of_all (by decide)⟩
  parameters := .named
    [{ earlier := [{ item := ⟨⟨'a', [], by decide, forall_of_all (by decide)⟩, by decide⟩ }]
       last :=
        { front := [' ']
          item :=
            { name := ⟨⟨'b', [], by decide, forall_of_all (by decide)⟩, by decide⟩
              gap := .of [' '] (by decide)
              type := intType }
          frontSpace := isSpace_space } }]
  results := .listed (.unnamed
    [{ item := tableType.word (forall_of_all (by decide)) },
      { front := [' ']
        item := intType.word (forall_of_all (by decide))
        frontSpace := isSpace_space }])

theorem signatures_declaration_find :
    Untested findDeclaration.line ∧
      signatures "store.go" "func (s *Store) Find(a, b int) (map[string]int, int) \x7b".toList =
      [{ name := "Find"
         parameters := [⟨"a", "int"⟩, ⟨"b", "int"⟩]
         results := [⟨"map[string]int", ""⟩, ⟨"int", ""⟩]
         file := "store.go"
         line := 1
         visibility := .pub }] := by
  have untested : Untested findDeclaration.line := by decide
  exact ⟨untested, signatures_declaration "store.go" findDeclaration untested⟩

end Drift.Source.Go
