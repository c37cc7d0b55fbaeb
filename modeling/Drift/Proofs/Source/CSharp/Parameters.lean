import Drift.Proofs.Recognizer.Replace
import Drift.Proofs.Source.Java
import Drift.Proofs.Source.Types
import Drift.Proofs.Text.Words
import Drift.Source.CSharp
import Mathlib.Data.List.Basic

namespace Drift.Source.CSharp

open Recognizer

theorem isTypeSign_of_isDottedWord {c : Char} (fits : isDottedWord c = true) : isTypeSign c = true := by
  rw [isDottedWord, Bool.or_eq_true] at fits
  rw [isTypeSign, Java.isTypeChar, isDollarWord]
  rcases fits with word | dot
  · rw [word]
    rfl
  · rw [dot, Bool.or_true]
    rfl

/-- A type: a name, type arguments, and whether it is an array and whether it may be null. -/
structure TypeText extends Applied isDottedWord where
  array : Bool := false
  question : Bool := false

namespace TypeText

variable (t : TypeText)

def marks : List Char := (if t.array then "[]".toList else []) ++ (if t.question then ['?'] else [])

def text : List Char := t.toApplied.text ++ t.marks

theorem marks_cases : t.marks ∈ ["[]?".toList, "[]".toList, "?".toList, []] := by
  rw [marks]
  cases t.array <;> cases t.question <;> decide

theorem signs : ∀ c ∈ t.text, isTypeSign c = true := by
  have marks : ∀ m ∈ ["[]?".toList, "[]".toList, "?".toList, []], ∀ c ∈ m, isTypeSign c = true :=
    forall_inner_of_all (by decide)
  exact List.forall_mem_append.2 ⟨t.toApplied.signs fun _ => isTypeSign_of_isDottedWord, marks _ t.marks_cases⟩

theorem balanced : Balanced typeBrackets (· ≠ ',') t.text := by
  have array : Balanced typeBrackets (· ≠ ',') (if t.array then "[]".toList else []) := by
    cases t.array with
    | false => exact .nil
    | true => exact .pair (by decide) .nil
  have question : Balanced typeBrackets (· ≠ ',') (if t.question then ['?'] else []) := by
    refine .of_plain ?_
    cases t.question
    · simp
    · exact forall_of_all (by decide)
  exact (t.toApplied.balanced (forall_of_all (by decide))).append (array.append question)

/-- The name of a type ends where its arguments or its marks begin, or what stands behind. -/
theorem exists_behind (u : List Char) :
    ∃ v, t.text ++ u = t.base.text ++ v ∧ ∀ c ∈ v.head?, c = '<' ∨ c = '[' ∨ c = '?' ∨ c ∈ u.head? := by
  obtain ⟨v, shape, head⟩ := t.toApplied.exists_behind (t.marks ++ u)
  refine ⟨v, by rw [text, List.append_assoc, shape], fun c mem => (head c mem).imp_right fun behind => ?_⟩
  have written := t.marks_cases
  simp only [List.mem_cons, List.not_mem_nil, or_false] at written
  rcases written with marks | marks | marks | marks <;> rw [marks] at behind
  · cases behind
    exact .inl rfl
  · cases behind
    exact .inl rfl
  · cases behind
    exact .inr (.inl rfl)
  · exact .inr (.inr behind)

theorem head_text (u : List Char) : ∀ c ∈ (t.text ++ u).head?, isDottedWord c = true := by
  obtain ⟨v, shape, -⟩ := t.exists_behind u
  obtain ⟨x, w, base⟩ := List.exists_cons_of_ne_nil t.base.nonempty
  have first : isDottedWord x = true := t.base.fits x (by simp [base])
  simpa [shape, base] using first

/-- The type is left as it is: it has no square brackets, and single blanks between its words. -/
def Kept : Prop := '[' ∉ t.text ∧ Text.joinWith [' '] (Text.words t.text) = t.text

end TypeText

structure Attribute where
  inside : List Char
  balanced : Balanced typeBrackets (fun _ => True) inside
  passes : Passes 1 1 inside
  free : ∀ c ∈ inside, c ≠ '[' ∧ c ≠ ']'
  whole : ∀ c ∈ inside, Text.isLineBreak c = false
  blanks : List Char := []
  space : ∀ c ∈ blanks, isSpace c = true := by exact isSpace_nil

def Attribute.aside (a : Attribute) : Aside ']' where
  inside := a.inside
  free mem := (a.free _ mem).2 rfl
  blanks := a.blanks
  blank c mem := isBlank_of_isSpace (a.space c mem)

def Attribute.text (a : Attribute) : List Char := a.aside.text '['

def withoutAttributes (t : List Char) : List Char := parameterAttribute.replace (fun _ => []) t

theorem forgetful_parameterAttribute : Forgetful parameterAttribute := .sign_bind

theorem withoutAttributes_aside (a : Aside ']') {t : List Char} (stop : ∀ c ∈ t.head?, Text.isBlank c = false) :
    withoutAttributes (a.text '[' ++ t) = withoutAttributes t := by
  have reads : parameterAttribute.Reads ⟨none, a.text '[' ++ t⟩ () ⟨a.blanks.getLast? <|> some ']', t⟩ := Reads.aside a stop
  exact forgetful_parameterAttribute.replace_reading (f := fun _ => []) reads.prefers.first

theorem withoutAttributes_cons {c : Char} (other : c ≠ '[') (t : List Char) :
    withoutAttributes (c :: t) = c :: withoutAttributes t :=
  forgetful_parameterAttribute.replace_cons (Refuses.first (.bind (.skip (.bind (.sign other)))))

theorem withoutAttributes_free {t : List Char} (free : '[' ∉ t) : withoutAttributes t = t := by
  induction t with
  | nil => rfl
  | cons c t ih =>
    rw [List.mem_cons, not_or] at free
    rw [withoutAttributes_cons (Ne.symm free.1), ih free.2]

def Followed : List Char → Prop
  | [] => True
  | c :: t => (c = '[' → ']' ∈ t) ∧ Followed t

theorem followed_append {t u : List Char} (left : Followed t) (right : Followed u) : Followed (t ++ u) := by
  induction t with
  | nil => exact right
  | cons c t ih => exact ⟨fun same => List.mem_append_left u (left.1 same), ih left.2⟩

theorem followed_behind {t u : List Char} (all : Followed (t ++ u)) : Followed u := by
  induction t with
  | nil => exact all
  | cons c t ih => exact ih all.2

theorem followed_balanced {p : Char → Prop} {t : List Char} (h : Balanced typeBrackets p t)
    (bare : ∀ c ∈ t, isQuote c = false) : Followed t := by
  induction h with
  | nil => trivial
  | char _ _ plain _ ih =>
    refine ⟨?_, ih fun c mem => bare c (by simp [mem])⟩
    rintro rfl
    exact absurd (by decide) plain
  | @arrow p c t _ plain _ _ _ _ ih =>
    refine ⟨?_, fun same => absurd same (by decide), ih fun c mem => bare c (by simp [mem])⟩
    rintro rfl
    exact absurd (by decide) plain
  | @quoted p l t _ _ _ =>
    have quote := bare l.quote (by simp [Literal.text])
    rw [l.isQuote] at quote
    cases quote
  | @group p o c inner t pair _ _ _ inside ih =>
    have rest := ih fun c mem => bare c (by simp [mem])
    have within := inside fun c mem => bare c (by simp [mem])
    have square : ∀ x ∈ pairs typeBrackets, (x.1 = '[' → x.2 = ']') ∧ x.2 ≠ '[' := by decide
    obtain ⟨closes, other⟩ : (o = '[' → c = ']') ∧ c ≠ '[' := square _ pair
    refine ⟨fun same => ?_, followed_append within ⟨fun same => absurd same other, rest⟩⟩
    rw [closes same]
    simp

/-- A bracket is removed with the blanks behind it, up to what stands there. -/
theorem exists_aside {w v : List Char} (free : ']' ∉ w) (filled : v ≠ []) (last : ∀ c ∈ v.getLast?, Text.isBlank c = false) :
    ∃ (a : Aside ']') (x : Char) (rest : List Char),
      '[' :: (w ++ ']' :: v) = a.text '[' ++ x :: rest ∧ Text.isBlank x = false := by
  obtain ⟨x, rest, trimmed, -⟩ := Text.exists_trimLeft filled (by rwa [List.nil_append])
  have parts : v.takeWhile Text.isBlank ++ Text.trimLeftWhile Text.isBlank v = v := List.takeWhile_append_dropWhile
  rw [trimmed] at parts
  refine ⟨⟨w, free, v.takeWhile Text.isBlank, fun c mem => List.all_eq_true.1 List.all_takeWhile c mem⟩, x, rest, ?_, ?_⟩
  · simp [Aside.text, parts]
  · exact Text.head_trimLeft x (by rw [trimmed]; rfl)

/-- In front of a character that is no blank and no bracket all square brackets are removed. -/
theorem withoutAttributes_followed {t : List Char} (followed : Followed t)
    (last : ∀ c ∈ t.getLast?, Text.isBlank c = false ∧ c ≠ ']') :
    ∃ s, (∀ u, withoutAttributes (t ++ u) = s ++ withoutAttributes u) ∧ '[' ∉ s ∧ ∀ c ∈ s, c ∈ t := by
  -- a reading passes more than one character, so the induction is on the length
  induction length : t.length using Nat.strongRecOn generalizing t with
  | _ n ih =>
    cases t with
    | nil => exact ⟨[], fun u => rfl, by simp, by simp⟩
    | cons c t =>
      by_cases opening : c = '['
      · subst opening
        obtain ⟨w, v, rfl, free⟩ := List.eq_append_cons_of_mem (followed.1 rfl)
        have filled : v ≠ [] := by
          rintro rfl
          exact (last ']' (by simp [List.getLast?_cons])).2 rfl
        have lastBehind : ∀ c ∈ v.getLast?, Text.isBlank c = false := by
          intro c mem
          refine (last c ?_).1
          have ends : '[' :: (w ++ ']' :: v) = ('[' :: (w ++ [']'])) ++ v := by simp
          rw [ends, List.getLast?_append, Option.mem_def.1 mem]
          rfl
        obtain ⟨a, x, rest, read, stop⟩ := exists_aside free filled lastBehind
        rw [read] at followed last length ⊢
        have less : (x :: rest).length < n := by
          simp only [← length, List.length_append, Aside.text, List.length_cons]
          omega
        have lastRest : ∀ c ∈ (x :: rest).getLast?, Text.isBlank c = false ∧ c ≠ ']' := by
          intro c mem
          rw [List.getLast?_append, Option.mem_def.1 mem] at last
          exact last c rfl
        obtain ⟨s, whole, free, inside⟩ := ih _ less (followed_behind followed) lastRest rfl
        refine ⟨s, fun u => ?_, free, fun c mem => List.mem_append_right _ (inside c mem)⟩
        rw [List.append_assoc, withoutAttributes_aside a (by simpa using stop), whole]
      · have lastTail : ∀ x ∈ t.getLast?, Text.isBlank x = false ∧ x ≠ ']' := by
          intro x mem
          exact last x (by rw [List.getLast?_cons, Option.mem_def.1 mem]; rfl)
        obtain ⟨s, whole, free, inside⟩ := ih t.length (by simp [← length]) followed.2 lastTail rfl
        refine ⟨c :: s, fun u => ?_, ?_, ?_⟩
        · rw [List.cons_append, withoutAttributes_cons opening, whole]
          rfl
        · rw [List.mem_cons, not_or]
          exact ⟨Ne.symm opening, free⟩
        · exact List.forall_mem_cons.2 ⟨by simp, fun x mem => List.mem_cons_of_mem c (inside x mem)⟩

structure Default where
  text : List Char
  filled : text ≠ []
  trimmed : Text.trim text = text
  balanced : Balanced typeBrackets (· ≠ ',') text
  passes : Passes 1 1 text
  whole : ∀ c ∈ text, Text.isLineBreak c = false

structure Parameter where
  attributes : List Attribute := []
  modifier : Option String := none
  known : ∀ m ∈ modifier, m ∈ parameterModifiers
  type : TypeText
  other : String.ofList type.base.text ∉ parameterModifiers
  gap : Text.Run isSpace
  name : Identifier
  default : Option Default := none

namespace Parameter

variable (p : Parameter)

def modifierText : List Char := spaced p.modifier.toList

def bare : List Char := p.modifierText ++ (p.type.text ++ (p.gap.text ++ p.name.text))

def defaultText : List Char :=
  match p.default with
  | none => []
  | some d => " = ".toList ++ d.text

def attributeText : List Char := p.attributes.flatMap Attribute.text

def text : List Char := p.attributeText ++ (p.bare ++ p.defaultText)

def declared : Signature.Parameter := parameter p.name.text p.type.text

theorem forall_modifierText {q : Char → Prop} (words : ∀ m ∈ parameterModifiers, ∀ c ∈ m.toList, q c) (space : q ' ') :
    ∀ c ∈ p.modifierText, q c :=
  forall_spaced (fun m mem => words m (p.known m (by simpa using mem))) space

theorem bare_signs : ∀ c ∈ p.bare, isTypeSign c = true := by
  have modifier : ∀ c ∈ p.modifierText, isTypeSign c = true :=
    p.forall_modifierText (forall_inner_of_all (by decide)) (by decide)
  have gap : ∀ c ∈ p.gap.text, isTypeSign c = true := fun c mem => isTypeSign_of_isSpace (p.gap.fits c mem)
  have name : ∀ c ∈ p.name.text, isTypeSign c = true := by
    intro c mem
    refine isTypeSign_of_isDottedWord ?_
    rw [isDottedWord, p.name.isWord c mem]
    rfl
  simp only [bare, List.forall_mem_append]
  exact ⟨modifier, p.type.signs, gap, name⟩

theorem bare_balanced : Balanced typeBrackets (· ≠ ',') p.bare := by
  have modifier : Balanced typeBrackets (· ≠ ',') p.modifierText :=
    .of_plain (p.forall_modifierText (forall_inner_of_all (by decide)) (by decide))
  have name : Balanced typeBrackets (· ≠ ',') p.name.text :=
    .of_plain fun c mem => plain_of_marks (forall_of_all (by decide)) (p.name.isWord c mem)
  exact modifier.append (p.type.balanced.append ((balanced_space p.gap.fits).append name))

theorem bare_head (u : List Char) : ∀ c ∈ (p.bare ++ u).head?, Text.isBlank c = false := by
  have visible : Visible p.modifier.toList := by
    have words : Visible parameterModifiers := by decide
    exact fun m mem => words m (p.known m (by simpa using mem))
  rw [bare, modifierText, List.append_assoc, List.append_assoc]
  exact head_spaced visible fun c mem => isBlank_of_isDottedWord (p.type.head_text _ c mem)

theorem bare_last : ∀ c ∈ p.bare.getLast?, c ∈ p.name.text := by
  intro c mem
  rw [bare, ← List.append_assoc, ← List.append_assoc, List.getLast?_append_of_ne_nil _ p.name.filled] at mem
  exact List.mem_of_getLast? mem

theorem head_behind (attributes : List Attribute) :
    ∀ c ∈ (attributes.flatMap Attribute.text ++ (p.bare ++ p.defaultText)).head?, Text.isBlank c = false := by
  cases attributes with
  | nil => exact p.bare_head p.defaultText
  | cons a attributes =>
    rintro _ ⟨⟩
    decide

theorem withoutAttributes_text : withoutAttributes p.text = withoutAttributes (p.bare ++ p.defaultText) := by
  rw [text, attributeText]
  induction p.attributes with
  | nil => rfl
  | cons a attributes ih =>
    rw [List.flatMap_cons, List.append_assoc, Attribute.text, withoutAttributes_aside a.aside (p.head_behind attributes), ih]

/-- What is left of the parameter is read word by word: nothing of the attributes and of the default. -/
theorem exists_words_left : ∃ s, (∀ u, withoutAttributes (p.bare ++ u) = s ++ withoutAttributes u) ∧ '[' ∉ s ∧
    Text.words ((withoutAttributes p.text).takeWhile (· != '=')) = Text.words s := by
  have followed : Followed p.bare := followed_balanced p.bare_balanced fun c mem => isQuote_of_isTypeSign (p.bare_signs c mem)
  have last : ∀ c ∈ p.bare.getLast?, Text.isBlank c = false ∧ c ≠ ']' := by
    intro c mem
    have word := p.name.isWord c (p.bare_last c mem)
    exact ⟨Text.isBlank_of_isWord word, Text.ne_of_class word (by decide)⟩
  obtain ⟨s, whole, free, inside⟩ := withoutAttributes_followed followed last
  have noEquals : ∀ c ∈ s, (c != '=') = true := fun c mem => by
    simpa using Text.ne_of_class (x := '=') (p.bare_signs c (inside c mem)) (by decide)
  refine ⟨s, whole, free, ?_⟩
  rw [withoutAttributes_text, whole, List.takeWhile_append_of_pos noEquals, defaultText]
  cases p.default with
  | none => simp [withoutAttributes]
  | some d =>
    have front : " = ".toList ++ d.text = ' ' :: '=' :: ' ' :: d.text := rfl
    have cut : (' ' :: '=' :: withoutAttributes (' ' :: d.text)).takeWhile (· != '=') = [' '] := rfl
    dsimp only
    rw [front, withoutAttributes_cons (by decide), withoutAttributes_cons (by decide), cut,
      Text.words_append_blank (by decide)]
    exact List.append_nil _

/-- The type does not start with a modifier: behind a name stands a bracket or a question mark. -/
theorem words_type : ∃ w ws, Text.words p.type.text = w :: ws ∧
    parameterModifiers.contains (String.ofList w) = false := by
  obtain ⟨v, shape, behind⟩ := p.type.exists_behind []
  rw [List.append_nil] at shape
  have other : p.type.base.text ∉ parameterModifiers.map String.toList := by
    intro mem
    obtain ⟨m, known, same⟩ := List.mem_map.1 mem
    refine p.other ?_
    rwa [← same, String.ofList_toList]
  have marks : ∀ c ∈ v.head?, ∀ w ∈ parameterModifiers.map String.toList, c ∉ w := by
    intro c mem
    rcases behind c mem with rfl | rfl | rfl | none
    · decide
    · decide
    · decide
    · cases none
  obtain ⟨w, ws, words, first⟩ := Text.words_of_run p.type.base (fun c => isBlank_of_isDottedWord) other marks
  refine ⟨w, ws, by rw [shape, words], ?_⟩
  rw [List.contains_eq_mem, decide_eq_false_iff_not]
  exact fun mem => first (List.mem_map.2 ⟨_, mem, String.toList_ofList⟩)

theorem words_bare : (Text.words p.bare).dropWhile (fun w => parameterModifiers.contains (String.ofList w)) =
    Text.words p.type.text ++ [p.name.text] := by
  have typed : Text.words (p.type.text ++ (p.gap.text ++ p.name.text)) = Text.words p.type.text ++ [p.name.text] := by
    rw [Text.words_append_gap p.gap.nonempty fun c mem => isBlank_of_isSpace (p.gap.fits c mem),
      Text.words_word p.name.filled fun c mem => Text.isBlank_of_isWord (p.name.isWord c mem)]
  obtain ⟨w, ws, words, kept⟩ := p.words_type
  have stop : (Text.words p.type.text ++ [p.name.text]).dropWhile (fun w => parameterModifiers.contains (String.ofList w)) =
      Text.words p.type.text ++ [p.name.text] := by
    rw [words, List.cons_append, List.dropWhile_cons, kept]
    rfl
  rw [bare, modifierText]
  cases written : p.modifier with
  | none =>
    have nothing : spaced (none : Option String).toList = [] := rfl
    rw [nothing, List.nil_append, typed, stop]
  | some m =>
    have mem : m ∈ parameterModifiers := p.known m written
    have word : ∀ m ∈ parameterModifiers, Text.words m.toList = [m.toList] := by decide
    have dropped : parameterModifiers.contains (String.ofList m.toList) = true := by simpa using mem
    have front : spaced (some m).toList ++ (p.type.text ++ (p.gap.text ++ p.name.text)) =
        m.toList ++ ' ' :: (p.type.text ++ (p.gap.text ++ p.name.text)) := by
      simp [spaced]
    rw [front, Text.words_append_blank (by decide), typed, word m mem, List.singleton_append, List.dropWhile_cons, dropped]
    exact stop

theorem bare_free (free : '[' ∉ p.type.text) : '[' ∉ p.bare := by
  have modifier : '[' ∉ p.modifierText := fun mem =>
    p.forall_modifierText (q := (· ≠ '[')) (forall_inner_of_all (by decide)) (by decide) '[' mem rfl
  have gap : '[' ∉ p.gap.text := fun mem => Text.ne_of_class (x := '[') (p.gap.fits _ mem) (by decide) rfl
  have name : '[' ∉ p.name.text := fun mem => Text.ne_of_class (x := '[') (p.name.isWord _ mem) (by decide) rfl
  simp only [bare, List.mem_append, not_or]
  exact ⟨modifier, free, gap, name⟩

theorem parameterOf_words {s : List Char}
    (left : Text.words ((withoutAttributes p.text).takeWhile (· != '=')) = Text.words s) :
    parameterOf p.text =
      Java.typedName ((Text.words s).dropWhile fun w => parameterModifiers.contains (String.ofList w)) := by
  rw [← left]
  rfl

/-- A parameter without square brackets in its type is read as it is, but for the blanks in the type. -/
theorem parameterOf_free (free : '[' ∉ p.type.text) :
    parameterOf p.text = some (parameter p.name.text (Text.joinWith [' '] (Text.words p.type.text))) := by
  obtain ⟨s, whole, -, left⟩ := p.exists_words_left
  have same : s = p.bare := by
    have alone := whole []
    rw [List.append_nil, withoutAttributes_free (p.bare_free free)] at alone
    simpa [withoutAttributes] using alone.symm
  obtain ⟨w, ws, words, -⟩ := p.words_type
  have filled : Text.words p.type.text ≠ [] := by simp [words]
  rw [p.parameterOf_words left, same, words_bare, Java.typedName_concat filled]

theorem parameterOf_text : parameterOf p.text = some p.declared ↔ p.type.Kept := by
  constructor
  · intro read
    obtain ⟨s, -, noBracket, left⟩ := p.exists_words_left
    have named := read
    rw [p.parameterOf_words left] at named
    obtain ⟨front, type, inside⟩ := Java.typedName_eq_some named
    -- the type that is read is made of words in which no bracket is left
    have free : '[' ∉ p.type.text := by
      rw [type]
      intro mem
      rcases Text.mem_joinWith mem with space | ⟨w, written, mem⟩
      · exact absurd space (by decide)
      · exact noBracket (Text.mem_of_mem_words ((List.dropWhile_sublist _).subset (inside w written)) mem)
    rw [p.parameterOf_free free, declared, Option.some.injEq, parameter, parameter, Signature.Parameter.mk.injEq] at read
    exact ⟨free, String.ofList_injective read.2⟩
  · rintro ⟨free, single⟩
    rw [p.parameterOf_free free, single]
    rfl

theorem last_text : ∀ c ∈ p.text.getLast?, Text.isBlank c = false := by
  have name : ∀ c ∈ p.bare.getLast?, Text.isBlank c = false := fun c mem =>
    Text.isBlank_of_isWord (p.name.isWord c (p.bare_last c mem))
  have filled : p.bare ≠ [] := by simp [bare, Identifier.text]
  intro c mem
  rw [text, defaultText] at mem
  cases written : p.default with
  | none =>
    rw [written, List.append_nil, List.getLast?_append_of_ne_nil _ filled] at mem
    exact name c mem
  | some d =>
    have last := (Text.trim_eq_self_iff.1 d.trimmed).2
    rw [written] at mem
    dsimp only at mem
    rw [← List.append_assoc, ← List.append_assoc, List.getLast?_append_of_ne_nil _ d.filled] at mem
    exact last c mem

theorem isTypedPart : IsTypedPart p.text := by
  have attributes : Balanced typeBrackets (· ≠ ',') p.attributeText := by
    rw [attributeText]
    induction p.attributes with
    | nil => exact .nil
    | cons a attributes ih =>
      rw [List.flatMap_cons, Attribute.text, Aside.text, List.cons_append, List.append_assoc, List.cons_append]
      exact .group (by decide) (fun same => absurd same (by decide)) a.balanced ((balanced_space a.space).append ih)
  have default : Balanced typeBrackets (· ≠ ',') p.defaultText := by
    rw [defaultText]
    cases p.default with
    | none => exact .nil
    | some d => exact .append (.of_plain (forall_of_all (by decide))) d.balanced
  have attributesWhole : ∀ c ∈ p.attributeText, Text.isLineBreak c = false := by
    intro c mem
    obtain ⟨a, -, mem⟩ := List.mem_flatMap.1 mem
    simp only [Attribute.text, Aside.text, List.mem_cons, List.mem_append] at mem
    rcases mem with rfl | mem | rfl | mem
    · decide
    · exact a.whole c mem
    · decide
    · exact isLineBreak_of_isSpace (a.space c mem)
  have defaultWhole : ∀ c ∈ p.defaultText, Text.isLineBreak c = false := by
    rw [defaultText]
    cases p.default with
    | none => simp
    | some d => exact List.forall_mem_append.2 ⟨forall_of_all (by decide), d.whole⟩
  refine ⟨by simp [text, bare, Identifier.text], Text.trim_eq_self (p.head_behind p.attributes) p.last_text, ?_, ?_⟩
  · exact attributes.append (p.bare_balanced.append default)
  · simp only [text, List.forall_mem_append]
    exact ⟨attributesWhole, fun c mem => isLineBreak_of_isTypeSign (p.bare_signs c mem), defaultWhole⟩

theorem passes : Passes 1 1 p.text := by
  have attributes : Passes 1 1 p.attributeText := by
    rw [attributeText]
    induction p.attributes with
    | nil => exact .nil
    | cons a attributes ih =>
      have space : Passes 1 1 a.blanks := .free fun c mem =>
        ⟨Text.ne_of_class (a.space c mem) (by decide), Text.ne_of_class (a.space c mem) (by decide)⟩
      have shape : (a :: attributes).flatMap Attribute.text =
          ['['] ++ (a.inside ++ ([']'] ++ (a.blanks ++ attributes.flatMap Attribute.text))) := by
        simp [Attribute.text, Aside.text, Attribute.aside]
      rw [shape]
      exact .append (.other (by decide) (by decide)) (a.passes.append (.append (.other (by decide) (by decide))
        (space.append ih)))
  have default : Passes 1 1 p.defaultText := by
    rw [defaultText]
    cases p.default with
    | none => exact .nil
    | some d => exact .append (.free (forall_of_all (by decide))) d.passes
  refine attributes.append (.append (.free fun c mem => ?_) default)
  exact ⟨Text.ne_of_class (p.bare_signs c mem) (by decide), Text.ne_of_class (p.bare_signs c mem) (by decide)⟩

end Parameter

end Drift.Source.CSharp
