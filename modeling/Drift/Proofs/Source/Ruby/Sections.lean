import Drift.Proofs.Recognizer.Repeated
import Drift.Proofs.Source.Nearest
import Drift.Proofs.Source.Visibility

namespace Drift.Source.Ruby

open Recognizer

variable {line t r : List Char} {v w : Visibility} {d : Definition} {o : Option String}

/-- The line starts a section of a visibility: it opens a class or a module, or it is a visibility word alone. -/
inductive Opens (line : List Char) : Visibility → Prop
  | scope {keyword : String} (known : keyword ∈ ["class", "module"]) (g : Text.Run Text.isBlank) {c : Char}
      (upper : c.isUpper = true) {rest : List Char} (shape : Text.trim line = keyword.toList ++ (g.text ++ c :: rest)) :
      Opens line .pub
  | marker {v : Visibility} (known : v.name ∈ visibilityWords) (shape : Text.trim line = v.name.toList) : Opens line v

def InFront : Option String → List Char → Prop
  | none, t => t = []
  | some w, t => w ∈ visibilityWords ∧ ∃ g : Text.Run Text.isBlank, t = w.toList ++ g.text

def Inline (line : List Char) (v : Visibility) : Prop :=
  ∃ before rest, InFront (some v.name) before ∧ Text.trim line = before ++ rest

def OnSelf (line : List Char) : Prop :=
  ∃ o before, InFront o before ∧ ∃ (g : Text.Run Text.isBlank) (rest : List Char),
    Text.trim line = before ++ ("def".toList ++ (g.text ++ ("self.".toList ++ rest)))

/-- The visibility of the section behind some lines: that of the nearest line that starts one. -/
inductive InSection (earlier : List (List Char)) : Visibility → Prop
  | nearest {before after : List (List Char)} {line : List Char} {v : Visibility}
      (shape : earlier = before ++ line :: after) (opens : Opens line v) (passed : ∀ l ∈ after, ∀ w, ¬ Opens l w) :
      InSection earlier v
  | outside (never : ∀ l ∈ earlier, ∀ w, ¬ Opens l w) : InSection earlier .pub

inductive Visible (earlier : List (List Char)) (line : List Char) : Visibility → Prop
  | inline {v : Visibility} (inline : Inline line v) : Visible earlier line v
  | onSelf (bare : ∀ w, ¬ Inline line w) (onSelf : OnSelf line) : Visible earlier line .pub
  | inSection {v : Visibility} (bare : ∀ w, ¬ Inline line w) (other : ¬ OnSelf line) (inside : InSection earlier v) :
      Visible earlier line v

def Named (singleton : Bool) (t : List Char) : Prop :=
  ∃ (n : Identifier) (behind : List Char), t = (if singleton then "self.".toList else []) ++ (n.text ++ behind) ∧
    ∀ c ∈ behind.head?, Text.isWord c = false ∧ c ≠ '.'

def Definition.Written (d : Definition) (t : List Char) : Prop :=
  ∃ before, InFront d.visibility before ∧ ∃ (g : Text.Run Text.isBlank) (rest : List Char),
    t = before ++ ("def".toList ++ (g.text ++ rest)) ∧ Named d.singleton rest

theorem yields_inFront : (optional do
      let v ← oneOf visibilityWords
      gap1
      return v : Recognizer (Option String)).Yields fun c o c' => ∃ before, InFront o before ∧ c.rest = before ++ c'.rest := by
  have word := Yields.bind (.oneOf visibilityWords) fun v => Yields.bind (.skip (.run1 Text.isBlank)) fun _ => .pure v
  refine (Yields.optional word).mono ?_
  rintro c _ c' (⟨w, rfl, w, c₁, ⟨known, first⟩, _, c₂, ⟨g, second, filled, blank⟩, rfl, rfl⟩ | ⟨rfl, rfl⟩)
  · exact ⟨w.toList ++ g, ⟨known, ⟨g, filled, blank⟩, rfl⟩, by rw [first, second, List.append_assoc]⟩
  · exact ⟨[], rfl, rfl⟩

def Parting (t : List Char) : Prop := ∀ x ∈ t.head?, x = '(' ∨ Text.isBlank x = true

theorem parting_blank {w : List Char} (blank : ∀ x ∈ w, Text.isBlank x = true) (behind : Parting t) : Parting (w ++ t) := by
  cases w with
  | nil => exact behind
  | cons x w =>
    rintro _ ⟨⟩
    exact .inr (blank x (by simp))

theorem yields_parting {α : Type} (f : Option (List Char) → α) : (do
      blanks
      let params ← optional (parenthesised <|> (do blanks1; many1 fun _ => true))
      gap
      atEnd
      return f params : Recognizer α).Yields fun c a _ => Parting c.rest ∧ ∃ params, a = f params := by
  have parenthesis : parenthesised.Yields fun c _ _ => Parting c.rest := by
    refine (Yields.bind (.sign '(') fun _ => Forward.yields).mono ?_
    rintro c _ _ ⟨_, c', shape, -⟩
    simp [Parting, shape]
  have spaced : (do blanks1; many1 fun _ => true : Recognizer (List Char)).Yields fun c _ _ => Parting c.rest := by
    refine (Yields.bind (.skip (.bind .char fun _ => Forward.yields)) fun _ => Forward.yields).mono ?_
    rintro c _ _ ⟨_, _, ⟨_, x, c', ⟨blank, shape⟩, -⟩, -⟩
    simp [Parting, shape, blank]
  refine (Yields.bind (.skip (.many Text.isBlank)) fun _ => .bind (.optional (.orElse parenthesis spaced)) fun params =>
    .bind .gap fun _ => .bind .atEnd fun _ => .pure (f params)).mono ?_
  rintro c _ _ ⟨_, c₁, ⟨w, first, blank⟩, params, c₂, parameters, _, c₃, ⟨u, second, gap⟩, _, _, ended, rfl, -⟩
  rw [first]
  refine ⟨parting_blank blank ?_, params, rfl⟩
  rcases parameters with ⟨_, -, parting⟩ | ⟨-, rfl⟩
  · exact parting
  · rw [second, ended]
    exact parting_blank gap nofun

theorem definition_written : definition.Yields fun c d _ => d.Written c.rest := by
  have all := Yields.bind yields_inFront fun visibility => Yields.bind (.keyword "def") fun _ =>
    Yields.bind (.optional (.text "self.".toList)) fun singleton => Yields.bind .identifier fun base =>
    Yields.bind (.optional (.char (p := fun c => c == '!' || c == '?' || c == '='))) fun mark => yields_parting fun params =>
      ({ visibility, singleton := singleton.isSome, name := base ++ mark.toList, parameters := params.getD [] } : Definition)
  refine Yields.mono all ?_
  rintro c d _ ⟨visibility, c₁, ⟨before, front, first⟩, _, c₂, ⟨g, second⟩, singleton, c₃, self, _, c₄, ⟨n, rfl, named⟩,
    mark, c₅, marked, parting, params, rfl⟩
  refine ⟨before, front, g, c₂.rest, by rw [first, second], n, c₄.rest, ?_, ?_⟩
  · rcases self with ⟨_, rfl, shape⟩ | ⟨rfl, rfl⟩
    · rw [shape, named]
      rfl
    · exact named
  · rcases marked with ⟨m, -, sign, shape⟩ | ⟨-, rfl⟩
    · rw [shape]
      rintro _ ⟨⟩
      simp only [Bool.or_eq_true, beq_iff_eq] at sign
      rcases sign with (rfl | rfl) | rfl <;> decide
    · intro x mem
      rcases parting x mem with rfl | blank
      · decide
      · exact ⟨Text.isWord_of_isBlank blank, fun dot => by rw [dot] at blank; revert blank; decide⟩

theorem visibilityWords_word : ∀ w ∈ visibilityWords, ∀ c ∈ w.toList, Text.isWord c = true :=
  forall_inner_of_all (by decide)

theorem visibilityWord_head {w : String} (known : w ∈ visibilityWords) (t : List Char) : (w.toList ++ t).head? = some 'p' := by
  have heads : ∀ w ∈ visibilityWords, w.toList.head? = some 'p' := by decide +kernel
  rw [List.head?_append, heads w known, Option.some_or]

theorem gap_stop (g : Text.Run Text.isBlank) (t : List Char) : ∀ c ∈ (g.text ++ t).head?, Text.isWord c = false := by
  obtain ⟨c, r, shape, blank, -⟩ := g.exists_head
  rw [shape]
  rintro _ ⟨⟩
  exact Text.isWord_of_isBlank blank

theorem gap_unique {g g' : Text.Run Text.isBlank} (left : ∀ c ∈ t.head?, Text.isBlank c = false)
    (right : ∀ c ∈ r.head?, Text.isBlank c = false) (same : g.text ++ t = g'.text ++ r) : t = r := by
  have gaps : g.text = g'.text := by
    rw [← Text.takeWhile_append_of_stop g.fits left, same, Text.takeWhile_append_of_stop g'.fits right]
  rw [gaps] at same
  exact List.append_cancel_left same

theorem visibilityWord_unique {w u : String} (known : w ∈ visibilityWords) (known' : u ∈ visibilityWords)
    (stop : ∀ c ∈ t.head?, Text.isWord c = false) (g : Text.Run Text.isBlank)
    (same : w.toList ++ t = u.toList ++ (g.text ++ r)) : u = w ∧ t = g.text ++ r := by
  obtain ⟨words, behind⟩ := Text.eq_of_append_gap (fun _ => Text.isWord_of_isBlank) (visibilityWords_word w known) stop
    (visibilityWords_word u known') g.nonempty g.fits same
  exact ⟨String.toList_injective words, behind⟩

theorem inFront_unique {o' : Option String} {before before' : List Char} (front : InFront o before)
    (front' : InFront o' before') (same : before ++ ("def".toList ++ t) = before' ++ ("def".toList ++ r)) : t = r := by
  have head (u : List Char) : ∀ c ∈ ("def".toList ++ u).head?, Text.isBlank c = false := by
    rintro _ ⟨⟩
    decide
  -- no visibility word starts with a `d`, and of two such words the blank behind tells how far they go
  cases o with
  | none =>
    cases front
    cases o' with
    | none =>
      cases front'
      exact List.append_cancel_left same
    | some w =>
      obtain ⟨known, g, rfl⟩ := front'
      have heads := congrArg List.head? same
      rw [List.append_assoc, visibilityWord_head known] at heads
      cases heads
  | some w =>
    obtain ⟨known, g, rfl⟩ := front
    rw [List.append_assoc] at same
    cases o' with
    | none =>
      cases front'
      have heads := congrArg List.head? same
      rw [visibilityWord_head known] at heads
      cases heads
    | some u =>
      obtain ⟨known', g', rfl⟩ := front'
      rw [List.append_assoc] at same
      obtain ⟨-, gaps⟩ := visibilityWord_unique known known' (gap_stop g _) g' same
      exact List.append_cancel_left (gap_unique (head t) (head r) gaps)

theorem named_iff {singleton : Bool} (named : Named singleton t) : "self.".toList <+: t ↔ singleton = true := by
  obtain ⟨n, behind, rfl, stop⟩ := named
  cases singleton with
  | true => exact iff_of_true (List.prefix_append _ _) rfl
  | false =>
    refine iff_of_false ?_ Bool.false_ne_true
    rintro ⟨rest, shape⟩
    have dotted : ("self".toList ++ '.' :: rest) = n.text ++ behind := shape
    have word : n.text = "self".toList := by
      have dot : ∀ c ∈ ('.' :: rest).head?, Text.isWord c = false := by
        rintro _ ⟨⟩
        decide
      rw [← Text.takeWhile_append_of_stop n.isWord fun c mem => (stop c mem).1, ← dotted,
        Text.takeWhile_append_of_stop (forall_of_all (by decide)) dot]
    rw [word] at dotted
    have behind : behind = '.' :: rest := (List.append_cancel_left dotted).symm
    exact (stop '.' (by simp [behind])).2 rfl

theorem named_head {singleton : Bool} (named : Named singleton t) : ∀ c ∈ t.head?, Text.isBlank c = false := by
  obtain ⟨n, behind, rfl, -⟩ := named
  cases singleton with
  | true =>
    rintro _ ⟨⟩
    decide
  | false =>
    rintro _ ⟨⟩
    exact Text.isBlank_of_isWord (n.isWord _ (by simp [Identifier.text]))

namespace Definition.Written

/-- A definition starts with `def`, or with a visibility word and a blank. -/
theorem start (written : d.Written t) : t.head? = some 'd' ∧ d.visibility = none ∨
    ∃ w ∈ visibilityWords, d.visibility = some w ∧ ∃ (g : Text.Run Text.isBlank) (r : List Char), t = w.toList ++ (g.text ++ r) := by
  obtain ⟨before, front, g, rest, rfl, -⟩ := written
  cases visible : d.visibility with
  | none =>
    rw [visible] at front
    cases front
    exact .inl ⟨rfl, rfl⟩
  | some w =>
    rw [visible] at front
    obtain ⟨known, u, rfl⟩ := front
    exact .inr ⟨w, known, rfl, u, _, List.append_assoc _ _ _⟩

variable (written : d.Written (Text.trim line))

include written

theorem inline_iff : Inline line v ↔ d.visibility = some v.name := by
  constructor
  · rintro ⟨_, rest, ⟨known, g, rfl⟩, shape⟩
    rw [List.append_assoc] at shape
    obtain ⟨first, -⟩ | ⟨w, known', visible, u, r, worded⟩ := written.start
    · rw [shape, visibilityWord_head known] at first
      cases first
    · rw [visible, (visibilityWord_unique known' known (gap_stop u r) g (worded.symm.trans shape)).1]
  · obtain ⟨before, front, g, rest, shape, -⟩ := written
    intro visible
    rw [visible] at front
    exact ⟨before, _, front, shape⟩

theorem onSelf_iff : OnSelf line ↔ d.singleton = true := by
  obtain ⟨before, front, g, rest, shape, named⟩ := written
  rw [← named_iff named]
  constructor
  · rintro ⟨o, before', front', g', rest', shape'⟩
    have same := inFront_unique front front' (shape.symm.trans shape')
    have self : ∀ c ∈ ("self.".toList ++ rest').head?, Text.isBlank c = false := by
      rintro _ ⟨⟩
      decide
    rw [gap_unique (named_head named) self same]
    exact List.prefix_append _ _
  · rintro ⟨rest', rfl⟩
    exact ⟨d.visibility, before, front, g, rest', shape⟩

theorem not_opens : ¬ Opens line v := by
  intro opens
  cases opens with
  | @scope keyword known g c upper behind shape =>
    have first : (Text.trim line).head? = some 'c' ∨ (Text.trim line).head? = some 'm' := by
      rw [shape]
      simp only [List.mem_cons, List.not_mem_nil, or_false] at known
      rcases known with rfl | rfl
      · exact .inl rfl
      · exact .inr rfl
    obtain ⟨other, -⟩ | ⟨w, known', -, u, r, worded⟩ := written.start
    · simp [other] at first
    · simp [worded, visibilityWord_head known'] at first
  | marker known shape =>
    rw [← List.append_nil v.name.toList] at shape
    obtain ⟨first, -⟩ | ⟨w, known', -, u, r, worded⟩ := written.start
    · rw [shape, visibilityWord_head known] at first
      cases first
    · obtain ⟨-, gap⟩ := visibilityWord_unique known known' (by simp) u (shape.symm.trans worded)
      exact u.nonempty (List.append_eq_nil_iff.1 gap.symm).1

end Definition.Written

theorem scope_accepts_iff : scope.accepts t = true ↔ ∃ keyword ∈ ["class", "module"],
    ∃ (g : Text.Run Text.isBlank) (c : Char) (rest : List Char), c.isUpper = true ∧ t = keyword.toList ++ (g.text ++ c :: rest) := by
  rw [accepts, Option.isSome_iff_exists]
  constructor
  · rintro ⟨a, reading⟩
    have all := Yields.bind (.skip (.oneOf ["class", "module"])) fun _ => Yields.bind (.skip (.run1 Text.isBlank)) fun _ =>
      Yields.skip (.char (p := Char.isUpper))
    obtain ⟨c', _, _, ⟨keyword, known, first⟩, _, _, ⟨g, second, filled, blank⟩, c, upper, third⟩ := all.of_atStart reading
    refine ⟨keyword, known, ⟨g, filled, blank⟩, c, c'.rest, upper, ?_⟩
    rw [third] at second
    rw [second] at first
    exact first
  · rintro ⟨keyword, known, g, c, rest, upper, rfl⟩
    have apart : ["class", "module"].Pairwise Apart := by decide +kernel
    have stop : ∀ x ∈ (c :: rest).head?, Text.isBlank x = false := by
      rintro _ ⟨⟩
      exact Text.isBlank_of_class (p := Char.isUpper) (by decide +kernel) upper
    exact ⟨(), Prefers.atStart (.after (.skip (.oneOf apart known)) (.after (.gap1 g.nonempty g.fits stop)
      (Reads.skip (.char upper)).prefers))⟩

theorem marker_atStart_iff {word : String} :
    marker.atStart (Text.trim line) = some word ↔ word ∈ visibilityWords ∧ Text.trim line = word.toList := by
  constructor
  · intro reading
    have all := Yields.bind (.oneOf visibilityWords) fun w => Yields.bind .gap fun _ => Yields.bind .atEnd fun _ => Yields.pure w
    obtain ⟨_, _, _, ⟨known, first⟩, _, _, ⟨g, second, blank⟩, _, _, ended, rfl, -⟩ := all.of_atStart reading
    have shape : Text.trim line = word.toList ++ g := by
      rw [ended, List.append_nil] at second
      rw [second] at first
      exact first
    -- the text is trimmed, so that no blank stands behind the word
    have last : ∀ c ∈ (Text.trim line).getLast?, Text.isBlank c = false := by
      rw [Text.getLast_trim]
      exact Text.last_trimRight
    cases g with
    | nil => exact ⟨known, by rw [shape, List.append_nil]⟩
    | cons x g =>
      have filled := List.cons_ne_nil x g
      rw [shape, List.getLast?_append, List.getLast?_eq_some_getLast filled, Option.some_or] at last
      have stop := last _ rfl
      rw [blank _ (List.getLast_mem filled)] at stop
      cases stop
  · rintro ⟨known, shape⟩
    have apart : visibilityWords.Pairwise Apart := by decide +kernel
    rw [shape, ← List.append_nil word.toList]
    apply Prefers.atStart
    apply Prefers.after (.oneOf apart known)
    apply Prefers.after (Reads.gap (w := []) (by simp) (by simp))
    apply Prefers.after .atEnd
    exact Reads.pure.prefers

def sectionOf (line : List Char) : Option Visibility :=
  match Line.of (Text.trim line) with
  | .scope => some .pub
  | .marker v => some v
  | _ => none

theorem name_of_ofName? {word : String} (named : Visibility.ofName? word = some v) : v.name = word := by
  have same := List.find?_some named
  exact eq_of_beq same

theorem opens_iff : Opens line v ↔ sectionOf line = some v := by
  unfold sectionOf Line.of
  by_cases opened : Ruby.scope.accepts (Text.trim line) = true
  case pos =>
    rw [if_pos opened, Option.some.injEq]
    obtain ⟨keyword, known, g, c, rest, upper, shape⟩ := scope_accepts_iff.1 opened
    constructor
    · rintro (⟨-, -, -, -⟩ | ⟨known', shape'⟩)
      · rfl
      · have heads := congrArg List.head? (shape.symm.trans shape')
        rw [← List.append_nil v.name.toList, visibilityWord_head known'] at heads
        simp only [List.mem_cons, List.not_mem_nil, or_false] at known
        rcases known with rfl | rfl <;> cases heads
    · rintro rfl
      exact .scope known g upper shape
  case neg =>
    rw [if_neg opened]
    constructor
    · rintro (⟨known, g, upper, shape⟩ | ⟨known, shape⟩)
      · exact absurd (scope_accepts_iff.2 ⟨_, known, g, _, _, upper, shape⟩) opened
      · rw [marker_atStart_iff.2 ⟨known, shape⟩, Option.bind_some, Visibility.ofName?_name]
    · intro opens
      cases read : (Ruby.marker.atStart (Text.trim line)).bind Visibility.ofName? with
      | none =>
        rw [read] at opens
        cases defined : definition.atStart (Text.trim line) <;> simp [defined] at opens
      | some w =>
        rw [read] at opens
        cases opens
        obtain ⟨word, marked, named⟩ := Option.bind_eq_some_iff.1 read
        obtain ⟨known, shape⟩ := marker_atStart_iff.1 marked
        rw [← name_of_ofName? named] at known shape
        exact .marker known shape

theorem sectionOf_eq_none_iff : sectionOf line = none ↔ ∀ v, ¬ Opens line v := by
  simp only [opens_iff, Option.eq_none_iff_forall_ne_some, ne_eq]

def sectionBehind (earlier : List (List Char)) : Visibility := (earlier.reverse.findSome? sectionOf).getD .pub

theorem sectionBehind_concat (earlier : List (List Char)) (line : List Char) :
    sectionBehind (earlier ++ [line]) = (sectionOf line).getD (sectionBehind earlier) := by
  rw [sectionBehind, List.reverse_append, List.reverse_singleton, List.singleton_append, List.findSome?_cons]
  cases sectionOf line <;> rfl

theorem inSection_iff {earlier : List (List Char)} : InSection earlier v ↔ sectionBehind earlier = v := by
  constructor
  · rintro (@⟨before, after, line, _, rfl, opens, passed⟩ | never)
    · have none : after.reverse.findSome? sectionOf = none :=
        List.findSome?_eq_none_iff.2 fun l mem => sectionOf_eq_none_iff.2 (passed l (List.mem_reverse.1 mem))
      simp [sectionBehind, List.findSome?_append, none, opens_iff.1 opens]
    · have none : earlier.reverse.findSome? sectionOf = none :=
        List.findSome?_eq_none_iff.2 fun l mem => sectionOf_eq_none_iff.2 (never l (List.mem_reverse.1 mem))
      rw [sectionBehind, none, Option.getD_none]
  · rintro rfl
    rw [sectionBehind]
    cases found : earlier.reverse.findSome? sectionOf with
    | none =>
      have never := List.findSome?_eq_none_iff.1 found
      exact .outside fun l mem => sectionOf_eq_none_iff.1 (never l (List.mem_reverse.2 mem))
    | some v =>
      obtain ⟨after, line, before, shape, opens, passed⟩ := List.findSome?_eq_some_iff.1 found
      have whole : earlier = before.reverse ++ line :: after.reverse := by
        rw [← List.reverse_reverse earlier, shape]
        simp
      exact .nearest whole (opens_iff.2 opens) fun l mem => sectionOf_eq_none_iff.1 (passed l (List.mem_reverse.1 mem))

def signatureOf (file : String) (n : Nat) (current : Visibility) (d : Definition) : Signature where
  name := String.ofList d.name
  parameters := parameters d.parameters
  file
  line := n
  visibility := visibilityIn current d

theorem written_of_defined (defined : definition.atStart t = some d) : d.Written t := by
  obtain ⟨_, written⟩ := definition_written.of_atStart defined
  exact written

theorem step_of_opens (file : String) (n : Nat) (current : Visibility) (opens : sectionOf line = some v) :
    step file n current (Line.of (Text.trim line)) = (v, []) := by
  unfold sectionOf at opens
  cases read : Line.of (Text.trim line) with
  | scope =>
    rw [read] at opens
    cases opens
    rfl
  | marker w =>
    rw [read] at opens
    cases opens
    rfl
  | method d => simp [read] at opens
  | other => simp [read] at opens

theorem step_of_none (file : String) (n : Nat) (current : Visibility) (none : sectionOf line = none) :
    step file n current (Line.of (Text.trim line)) =
      (current, ((definition.atStart (Text.trim line)).map (signatureOf file n current)).toList) := by
  unfold sectionOf Line.of at none
  unfold Line.of
  by_cases opened : Ruby.scope.accepts (Text.trim line) = true
  · rw [if_pos opened] at none
    cases none
  · rw [if_neg opened] at none ⊢
    cases read : (Ruby.marker.atStart (Text.trim line)).bind Visibility.ofName? with
    | some v => simp [read] at none
    | none => cases definition.atStart (Text.trim line) <;> rfl

theorem step_sectionBehind (file : String) (earlier : List (List Char)) (n : Nat) (line : List Char) :
    step file n (sectionBehind earlier) (Line.of (Text.trim line)) =
      (sectionBehind (earlier ++ [line]),
        ((definition.atStart (Text.trim line)).map (signatureOf file n (sectionBehind earlier))).toList) := by
  rw [sectionBehind_concat]
  cases opens : sectionOf line with
  | none => exact step_of_none file n _ opens
  | some v =>
    have undefined : definition.atStart (Text.trim line) = none := by
      rw [Option.eq_none_iff_forall_ne_some]
      exact fun d defined => (written_of_defined defined).not_opens (opens_iff.2 opens)
    rw [step_of_opens file n _ opens, undefined]
    rfl

def emitted (file : String) (earlier : List (Nat × List Char)) (i : Nat × List Char) : List Signature :=
  ((definition.atStart (Text.trim i.2)).map (signatureOf file i.1 (sectionBehind (earlier.map Prod.snd)))).toList

theorem signatures_eq (file : String) (text : List Char) :
    signatures file text = (withEarlier (Text.numberedLines text)).flatMap fun (earlier, i) => emitted file earlier i := by
  have each (earlier : List (Nat × List Char)) (n : Nat) (line : List Char) :
      step file n (sectionBehind (earlier.map Prod.snd)) (Line.of (Text.trim line)) =
        (sectionBehind ((earlier ++ [id (n, line)]).map Prod.snd), emitted file earlier (id (n, line))) := by
    rw [step_sectionBehind, List.map_append]
    rfl
  have run := @scan_of_history _ _ _ (fun s n line => step file n s (Line.of (Text.trim line))) id
    (fun earlier => sectionBehind (earlier.map Prod.snd)) (emitted file) each (Text.numberedLines text)
  rwa [List.map_id] at run

theorem visible_iff {earlier : List (List Char)} (written : d.Written (Text.trim line)) :
    Visible earlier line v ↔ visibilityIn (sectionBehind earlier) d = v := by
  obtain ⟨-, bare⟩ | ⟨word, known, inline, -⟩ := written.start
  · have never (w : Visibility) : ¬ Inline line w := by
      rw [written.inline_iff, bare]
      exact nofun
    rw [visibilityIn, bare, Option.bind_none]
    cases self : d.singleton with
    | true =>
      have onSelf := written.onSelf_iff.2 self
      constructor
      · rintro (inline | - | ⟨-, other, -⟩)
        · exact absurd inline (never v)
        · rfl
        · exact absurd onSelf other
      · rintro rfl
        exact .onSelf never onSelf
    | false =>
      have other : ¬ OnSelf line := by
        rw [written.onSelf_iff, self]
        exact Bool.false_ne_true
      constructor
      · rintro (inline | ⟨-, onSelf⟩ | ⟨-, -, inside⟩)
        · exact absurd inline (never v)
        · exact absurd onSelf other
        · exact inSection_iff.1 inside
      · exact fun behind => .inSection never other (inSection_iff.2 behind)
  · have names : ∀ w ∈ visibilityWords, (Visibility.ofName? w).isSome := by decide +kernel
    obtain ⟨u, named⟩ := Option.isSome_iff_exists.1 (names word known)
    have stands : Inline line u := by rw [written.inline_iff, inline, name_of_ofName? named]
    rw [visibilityIn, inline, Option.bind_some, named]
    constructor
    · rintro (inline' | ⟨bare, -⟩ | ⟨bare, -, -⟩)
      · rw [written.inline_iff, inline, Option.some.injEq] at inline'
        rw [inline', Visibility.ofName?_name] at named
        exact (Option.some.inj named).symm
      · exact absurd stands (bare u)
      · exact absurd stands (bare u)
    · rintro rfl
      exact .inline stands

theorem line_of_mem {file : String} {earlier : List (Nat × List Char)} {i : Nat × List Char} {f : Signature}
    (mem : f ∈ emitted file earlier i) : f.line = (i.1 : Int) := by
  obtain ⟨d, -, rfl⟩ := Option.map_eq_some_iff.1 (Option.mem_toList.1 mem)
  rfl

theorem signatures_increasing (file : String) (text : List Char) :
    (signatures file text).Pairwise fun f g => f.line < g.line := by
  have numbered := Text.numberedLines_increasing text
  rw [← map_snd_withEarlier (Text.numberedLines text), List.pairwise_map] at numbered
  rw [signatures_eq, List.pairwise_flatMap]
  constructor
  · rintro ⟨earlier, n, line⟩ -
    unfold emitted
    cases definition.atStart (Text.trim line) <;> simp
  · refine numbered.imp fun less f here g there => ?_
    rw [line_of_mem here, line_of_mem there]
    exact Int.ofNat_lt.2 less

/-- The visibility of each definition is that of the word in front of it; without one it is public on `self`, and else as
the nearest line before it says that starts a section. A line has one signature at most, and a definition starts no
section. -/
theorem signatures_visible (file : String) (text : List Char) :
    (signatures file text).Pairwise (fun f g => f.line < g.line) ∧
    (∀ f ∈ signatures file text, ∃ (earlier : List (Nat × List Char)) (n : Nat) (line : List Char) (later : List (Nat × List Char)),
      Text.numberedLines text = earlier ++ (n, line) :: later ∧ f.line = (n : Int) ∧
      ∀ v, Visible (earlier.map Prod.snd) line v ↔ f.visibility = v) ∧
    ∀ line d, definition.atStart (Text.trim line) = some d → ∀ v, ¬ Opens line v := by
  refine ⟨signatures_increasing file text, fun f mem => ?_, fun line d defined v => ?_⟩
  · rw [signatures_eq, List.mem_flatMap] at mem
    obtain ⟨⟨earlier, n, line⟩, inside, mem⟩ := mem
    obtain ⟨later, shape⟩ := exists_of_mem_withEarlier inside
    refine ⟨earlier, n, line, later, shape, line_of_mem mem, fun v => ?_⟩
    obtain ⟨d, defined, rfl⟩ := Option.map_eq_some_iff.1 (Option.mem_toList.1 mem)
    exact visible_iff (written_of_defined defined)
  · exact (written_of_defined defined).not_opens

example : (signatures "a.rb" ("class A\n  private\n  def self.a\n  public def b\n  def c\nmodule B\ndef d").toList).map
      (fun f => (f.name, f.line, f.visibility)) =
    [("a", 3, .pub), ("b", 4, .pub), ("c", 5, .priv), ("d", 7, .pub)] := by decide +kernel

end Drift.Source.Ruby
