import Drift.Proofs.Source.Java.Marks
import Drift.Proofs.Source.Java.Routing

namespace Drift.Source.Java

open Recognizer

structure Argument where
  gap : List Char := []
  gapSpace : ∀ c ∈ gap, isSpace c = true := by exact isSpace_nil
  string : Padded (List Char)

def Argument.inside (g : Argument) : List Char := g.string.text fun s => '"' :: (s ++ ['"'])

structure Annotation where
  name : Text.Run isTypeChar
  argument : Option Argument := none

def behindArgument (inside : List Char) : Option Method :=
  (Text.cutAtFirst? ')' (inside ++ [')'])).bind fun (_, rest) =>
    if rest.head?.any Text.isBlank then method? rest else none

namespace Annotation

variable (a : Annotation)

def argumentText : List Char :=
  match a.argument with
  | none => []
  | some g => g.gap ++ '(' :: (g.inside ++ [')'])

def text : List Char := '@' :: (a.name.text ++ a.argumentText)

def disguised? : Option Method :=
  match a.argument with
  | none => none
  | some g => if g.gap = [] ∧ a.name.text.all Text.isWord = true then behindArgument g.inside else none

/-- An annotation is taken for a method only if a parenthesis closes in its string and a blank stands behind. -/
theorem exists_blank_of_disguised (taken : a.disguised? ≠ none) :
    ∃ g ∈ a.argument, ∃ u c v, g.string.item = u ++ ')' :: c :: v ∧ Text.isBlank c = true := by
  obtain ⟨g, there, behind⟩ : ∃ g ∈ a.argument, behindArgument g.inside ≠ none := by
    rw [disguised?] at taken
    cases written : a.argument with
    | none => simp [written] at taken
    | some g =>
      simp only [written] at taken
      split at taken
      · exact ⟨g, rfl, taken⟩
      · exact absurd rfl taken
  have front : ')' ∉ g.string.front := fun mem => Text.ne_of_class (g.string.frontSpace _ mem) (x := ')') (by decide) rfl
  have back : ')' ∉ g.string.back := fun mem => Text.ne_of_class (g.string.backSpace _ mem) (x := ')') (by decide) rfl
  have blank : ∀ u rest, g.inside ++ [')'] = u ++ ')' :: rest → ')' ∉ u → rest.head?.any Text.isBlank = true := by
    intro u rest parts free
    rw [behindArgument, Text.cutAtFirst_eq_some_iff.2 ⟨parts, free⟩, Option.bind_some] at behind
    by_contra visible
    exact behind (if_neg visible)
  -- without such a parenthesis the argument ends where it should, with nothing behind
  by_cases closed : ')' ∈ g.string.item
  · obtain ⟨u, s, parts, free⟩ := List.eq_append_cons_of_mem closed
    have next := blank (g.string.front ++ '"' :: u) (s ++ '"' :: (g.string.back ++ [')'])) (by
      simp [Argument.inside, Padded.text, parts]) (by simp [front, free])
    cases s with
    | nil =>
      have quote : Text.isBlank '"' = true := next
      exact absurd quote (by decide)
    | cons c v => exact ⟨g, there, u, c, v, parts, by simpa using next⟩
  · have whole : ')' ∉ g.inside := by simp [Argument.inside, Padded.text, front, back, closed]
    exact absurd (blank g.inside [] rfl whole) (by decide)

theorem trim_text : Text.trim a.text = a.text := by
  rw [text, argumentText]
  cases a.argument with
  | none =>
    have name : ∀ c ∈ a.name.text.getLast?, Text.isBlank c = false := fun c mem =>
      isBlank_of_isTypeChar (a.name.fits c (List.mem_of_getLast? mem))
    rw [List.append_nil]
    exact Text.trim_ending (w := []) (by decide) a.name.nonempty name
  | some g =>
    have shape : a.name.text ++ (g.gap ++ '(' :: (g.inside ++ [')'])) = (a.name.text ++ (g.gap ++ '(' :: g.inside)) ++ [')'] := by
      simp
    rw [shape]
    exact Text.trim_ending (by decide) (by simp) (by rintro _ ⟨⟩; decide)

theorem methodHead_brokenName (broken : ¬ ∀ c ∈ a.name.text, Text.isWord c = true) (t : List Char) :
    methodHead.atStart ('@' :: (a.name.text ++ t)) = none := by
  have parts : a.name.text = a.name.text.takeWhile Text.isWord ++ a.name.text.dropWhile Text.isWord := by simp
  have word : ∀ c ∈ a.name.text.takeWhile Text.isWord, Text.isWord c = true := fun c mem =>
    List.all_eq_true.1 List.all_takeWhile c mem
  cases behind : a.name.text.dropWhile Text.isWord with
  | nil =>
    rw [behind, List.append_nil] at parts
    rw [← parts] at word
    exact absurd word broken
  | cons c v =>
    have head : Text.isWord c = false := by
      have stop := List.head?_dropWhile_not Text.isWord a.name.text
      rw [behind] at stop
      simpa using stop
    have named : isTypeChar c = true := a.name.fits c (by rw [parts, behind]; simp)
    rw [parts, behind, List.append_assoc]
    refine methodHead_broken word ?_
    rintro _ ⟨⟩
    exact ⟨head, isBlank_of_isTypeChar named, Text.ne_of_class named (by decide)⟩

theorem method_text : method? a.text = a.disguised? := by
  have headless : ∀ {t : List Char}, methodHead.atStart t = none → method? t = none := by
    intro t none
    rw [method?, none]
    rfl
  rw [disguised?, text, argumentText]
  by_cases words : ∀ c ∈ a.name.text, Text.isWord c = true
  · cases a.argument with
    | none => exact headless (methodHead_broken words (by simp))
    | some g =>
      dsimp only
      by_cases gapped : g.gap = []
      · have closed : ')' ∈ g.inside ++ [')'] := by simp
        obtain ⟨u, rest, parts, free⟩ := List.eq_append_cons_of_mem closed
        have behind : behindArgument g.inside = if rest.head?.any Text.isBlank then method? rest else none := by
          rw [behindArgument, Text.cutAtFirst_eq_some_iff.2 ⟨parts, free⟩]
          rfl
        rw [if_pos ⟨gapped, List.all_eq_true.2 words⟩, behind, gapped, List.nil_append, parts, method?,
          methodHead_argument a.name.nonempty words free]
        split
        · rfl
        · rfl
      · have blank : ∀ c ∈ g.gap, Text.isBlank c = true := fun c mem => isBlank_of_isSpace (g.gapSpace c mem)
        rw [if_neg fun plain => gapped plain.1]
        exact headless (methodHead_gapped a.name.nonempty words gapped blank)
  · rw [headless (a.methodHead_brokenName words _)]
    cases a.argument with
    | none => rfl
    | some g => exact (if_neg fun plain => words (List.all_eq_true.1 plain.2)).symm

theorem typeDeclaration_text : typeDeclaration.accepts a.text = false := by
  have sign : isTypeChar '@' = false := by decide
  have noModifier : (oneOf ["public", "protected", "private", "abstract", "final", "static"]).Refuses (.start a.text) :=
    .oneOf_class (by decide) (forall_inner_of_all (by decide)) sign
  have noType : (oneOf ["class", "interface"]).Refuses (.start a.text) :=
    .oneOf_class (by decide) (forall_inner_of_all (by decide)) sign
  have refused : typeDeclaration.Refuses (.start a.text) := by
    apply Refuses.after (.repeated_none noModifier.skip.bind)
    exact .bind noType.skip
  rw [accepts, refused.atStart]
  rfl

/-- What is read in the line: the method for which it is taken, if any. -/
theorem of_text (other : mapping.accepts a.text = false) :
    Line.of a.text = (a.disguised?.map fun m => Line.method m.name).getD .other := by
  have unmapped : mapping.atStart a.text = none := by simpa [accepts] using other
  rw [Line.of, unmapped, a.typeDeclaration_text, a.method_text]
  cases a.disguised? <;> rfl

end Annotation

theorem of_padded (a : Padded Annotation) (other : mapping.accepts a.item.text = false) :
    Line.of (Text.trim (a.text Annotation.text)) = (a.item.disguised?.map fun m => Line.method m.name).getD .other := by
  rw [trim_padded a a.item.trim_text, a.item.of_text other]

def further (k : Nat) (e : Endpoint) : Endpoint := { e with line := e.line + k }

def movedBehind (n k : Nat) (e : Endpoint) : Endpoint := if e.line ≤ n then e else further k e

def lineStep (file : String) (s : State) (n : Nat) (line : List Char) : State × List Endpoint :=
  State.step file n s (Line.of (Text.trim line))

theorem endpoints_eq_scan (file : String) (text : List Char) :
    endpoints file text = scan (lineStep file) {} (numberedFrom 1 (Text.lines text)) := rfl

/-- What a state holds for the lines behind: the route of the class, and the annotation wherever it stands. -/
def State.shown (s : State) : List Char × Option (List String × String) := (s.base, s.pairing.map fun p => (p.methods, p.path))

theorem step_further {s s' : State} (alike : s'.shown = s.shown) (file : String) (n k : Nat) (l : Line) :
    (State.step file (n + k) s' l).1.shown = (State.step file n s l).1.shown ∧
      (State.step file (n + k) s' l).2 = (State.step file n s l).2.map (further k) := by
  obtain ⟨base, p⟩ := s
  obtain ⟨base', p'⟩ := s'
  obtain ⟨rfl, held⟩ : base' = base ∧ p'.map (fun p => (p.methods, p.path)) = p.map fun p => (p.methods, p.path) :=
    Prod.mk.inj alike
  cases p with
  | none =>
    obtain rfl := Option.map_eq_none_iff.1 held
    cases l <;> exact ⟨rfl, rfl⟩
  | some q =>
    obtain ⟨q', rfl, same⟩ := Option.map_eq_some_iff.1 held
    obtain ⟨methods, path⟩ := Prod.mk.inj same
    cases l with
    | mapping ms p =>
      simp only [State.step, State.shown, Route.Pairing.annotate, methods, path]
      split <;> exact ⟨rfl, rfl⟩
    | method fn => simp [State.step, State.shown, Route.Pairing.consume, further, endpoint, methods, path]
    | _ => simp [State.step, State.shown, Route.Pairing.consume, methods, path]

theorem scan_further {s s' : State} (alike : s'.shown = s.shown) (file : String) (n k : Nat) (ls : List (List Char)) :
    scan (lineStep file) s' (numberedFrom (n + k) ls) = (scan (lineStep file) s (numberedFrom n ls)).map (further k) := by
  induction ls generalizing n s s' with
  | nil => rfl
  | cons l ls ih =>
    obtain ⟨onward, emitted⟩ := step_further alike file n k (Line.of (Text.trim l))
    have next : n + k + 1 = n + 1 + k := by omega
    rw [numberedFrom_cons, numberedFrom_cons, scan, scan, List.map_append, next, lineStep, lineStep, emitted,
      ih onward (n + 1)]

theorem emits_line (file : String) : Emits (lineStep file) (fun _ => True) fun n _ e => e.line = n where
  keeps := fun _ _ _ _ => trivial
  emits := by
    intro s n l _ e mem
    rw [lineStep] at mem
    cases read : Line.of (Text.trim l) with
    | method fn =>
      rw [read, State.step] at mem
      cases pending : s.pairing with
      | none => simp [pending, Route.Pairing.consume] at mem
      | some p =>
        simp only [pending, Route.Pairing.consume, List.mem_map] at mem
        obtain ⟨method, -, rfl⟩ := mem
        rfl
    | _ => simp [read, State.step, Route.Pairing.consume] at mem

theorem line_of_mem_scan {file : String} {s : State} {n : Nat} {ls : List (List Char)} {e : Endpoint}
    (mem : e ∈ scan (lineStep file) s (numberedFrom n ls)) : (n : Int) ≤ e.line ∧ e.line < n + ls.length := by
  obtain ⟨k, l, inside, line⟩ := (emits_line file).mem_scan trivial mem
  have bounds := bounds_of_mem_numberedFrom inside
  omega

theorem movedBehind_earlier {file : String} {s : State} {n m : Nat} {ls : List (List Char)} (within : n + ls.length ≤ m + 1)
    (k : Nat) : (scan (lineStep file) s (numberedFrom n ls)).map (movedBehind m k) =
      scan (lineStep file) s (numberedFrom n ls) := by
  have stays : ∀ e ∈ scan (lineStep file) s (numberedFrom n ls), movedBehind m k e = e := by
    intro e mem
    have bounds := line_of_mem_scan mem
    exact if_pos (by omega)
  rw [List.map_congr_left stays, List.map_id']

theorem movedBehind_later {file : String} {s : State} {n m : Nat} (beyond : m < n) (k : Nat) (ls : List (List Char)) :
    (scan (lineStep file) s (numberedFrom n ls)).map (movedBehind m k) =
      scan (lineStep file) s (numberedFrom (n + k) ls) := by
  have moves : ∀ e ∈ scan (lineStep file) s (numberedFrom n ls), movedBehind m k e = further k e := by
    intro e mem
    have bounds := line_of_mem_scan mem
    exact if_neg (by omega)
  rw [List.map_congr_left moves, scan_further rfl]

def State.Waits (s : State) : Prop := ∃ p, s.pairing = some p ∧ p.methods ≠ []

/-- Behind a mapping the state waits for a method, whatever came before. -/
theorem exists_waiting (file : String) {m : List Char} (mapped : mapping.accepts (Text.trim m) = true)
    (before : List (List Char)) :
    ∃ s : State, s.Waits ∧ ∀ rest, scan (lineStep file) {} (numberedFrom 1 (before ++ m :: rest)) =
      scan (lineStep file) {} (numberedFrom 1 before) ++
        scan (lineStep file) s (numberedFrom (before.length + 2) rest) := by
  obtain ⟨⟨kind, args⟩, reading⟩ := Option.isSome_iff_exists.1 mapped
  obtain ⟨methods, path, read⟩ : ∃ methods path, Line.of (Text.trim m) = .mapping methods path :=
    ⟨_, _, by rw [Line.of, reading]⟩
  let front := stateBehind (lineStep file) {} (numberedFrom 1 before)
  obtain ⟨pending, held, same⟩ := Route.Pairing.annotate_methods front.pairing (Line.of_mapping read)
    (some (String.ofList path)) (1 + before.length : Nat)
  have annotated : lineStep file front (1 + before.length) m = ({ front with pairing := some pending }, []) := by
    rw [lineStep, read, State.step, held]
  refine ⟨{ front with pairing := some pending }, ⟨pending, rfl, same ▸ Line.of_mapping read⟩, fun rest => ?_⟩
  have next : 1 + before.length + 1 = before.length + 2 := by omega
  rw [numberedFrom_append, scan_append, numberedFrom_cons, scan, annotated, List.nil_append, next]

theorem scan_inert {ls : List (List Char)} (inert : ∀ l ∈ ls, Line.of (Text.trim l) = .other) (file : String) (s : State)
    (n : Nat) (ms : List (List Char)) :
    scan (lineStep file) s (numberedFrom n (ls ++ ms)) = scan (lineStep file) s (numberedFrom (n + ls.length) ms) := by
  induction ls generalizing n with
  | nil => rfl
  | cons l ls ih =>
    obtain ⟨first, rest⟩ := List.forall_mem_cons.1 inert
    have passed : lineStep file s n l = (s, []) := by rw [lineStep, first, State.step]
    have next : n + 1 + ls.length = n + (l :: ls).length := by
      rw [List.length_cons]
      omega
    rw [List.cons_append, numberedFrom_cons, scan, passed, List.nil_append, ih rest, next]

/-- A line that is taken for a method takes the annotation that waits. -/
theorem exists_early (file : String) {s : State} (waits : s.Waits)
    {as : List (Padded Annotation)} (others : ∀ a ∈ as, mapping.accepts a.item.text = false)
    (disguised : ∃ a ∈ as, a.item.disguised? ≠ none) (n : Nat) (ls : List (List Char)) :
    ∃ e ∈ scan (lineStep file) s (numberedFrom n (as.map (Padded.text Annotation.text) ++ ls)), e.line < n + as.length := by
  obtain ⟨pending, held, filled⟩ := waits
  induction as generalizing n with
  | nil => simp at disguised
  | cons a as ih =>
    obtain ⟨other, rest⟩ := List.forall_mem_cons.1 others
    have read := of_padded a other
    rw [List.map_cons, List.cons_append, numberedFrom_cons, scan, List.length_cons]
    -- the first line that is taken for a method finds the state as it was
    cases taken : a.item.disguised? with
    | none =>
      obtain ⟨e, mem, early⟩ := ih rest (by simpa [taken] using disguised) (n + 1)
      have passed : lineStep file s n (a.text Annotation.text) = (s, []) := by
        rw [lineStep, read, taken]
        rfl
      rw [passed]
      exact ⟨e, mem, by omega⟩
    | some method =>
      obtain ⟨verb, named⟩ := List.exists_mem_of_ne_nil _ filled
      have emitted : (lineStep file s n (a.text Annotation.text)).2 = pending.methods.map fun verb =>
          endpoint .java file n verb.toList (Route.join s.base pending.path.toList) method.name := by
        rw [lineStep, read, taken]
        simp [State.step, held, Route.Pairing.consume]
      refine ⟨endpoint .java file n verb.toList (Route.join s.base pending.path.toList) method.name, ?_, ?_⟩
      · rw [emitted]
        exact List.mem_append_left _ (List.mem_map_of_mem named)
      · have here : (n : Int) < n + (as.length + 1 : Nat) := by omega
        exact here

/-- Other annotations between a mapping and what follows it make no difference exactly if none of them is taken for a
method, and none is unless a parenthesis closes in its string with a blank behind. -/
theorem endpoints_stacked (file : String) {m : List Char} {as : List (Padded Annotation)} {before after : List (List Char)}
    {t u : List Char} (mapped : mapping.accepts (Text.trim m) = true)
    (others : ∀ a ∈ as, mapping.accepts a.item.text = false)
    (linesT : Text.lines t = before ++ m :: (as.map (Padded.text Annotation.text) ++ after))
    (linesU : Text.lines u = before ++ m :: after) :
    (endpoints file t = (endpoints file u).map (movedBehind (before.length + 1) as.length) ↔
      ∀ a ∈ as, a.item.disguised? = none) ∧
    ∀ a ∈ as, a.item.disguised? ≠ none →
      ∃ g ∈ a.item.argument, ∃ u c v, g.string.item = u ++ ')' :: c :: v ∧ Text.isBlank c = true := by
  refine ⟨?_, fun a _ => a.item.exists_blank_of_disguised⟩
  obtain ⟨waiting, waits, cut⟩ := exists_waiting file mapped before
  -- up to the mapping the runs are the same, and behind it they start from the same state
  rw [endpoints_eq_scan, endpoints_eq_scan, linesT, linesU, cut, cut, List.map_append, movedBehind_earlier (by omega),
    movedBehind_later (by omega), List.append_cancel_left_eq]
  constructor
  · intro alike a mem
    by_contra taken
    obtain ⟨e, found, early⟩ := exists_early file waits others ⟨a, mem, taken⟩ (before.length + 2) after
    rw [alike] at found
    have bounds := line_of_mem_scan found
    omega
  · intro plain
    have inert : ∀ l ∈ as.map (Padded.text Annotation.text), Line.of (Text.trim l) = .other := by
      intro l mem
      obtain ⟨a, there, rfl⟩ := List.mem_map.1 mem
      rw [of_padded a (others a there), plain a there]
      rfl
    rw [scan_inert inert, List.length_map]

def preAuthorize : Annotation where
  name := .of "PreAuthorize".toList (by decide +kernel)
  argument := some { string.item := "hasRole('A') and hasRole('B')".toList }

theorem endpoints_preAuthorize :
    endpoints "A.java" ("@GetMapping(\"/a\")\n@PreAuthorize(\"hasRole('A') and hasRole('B')\")\n" ++
        "public String h() \x7b").toList ≠
      (endpoints "A.java" "@GetMapping(\"/a\")\npublic String h() \x7b".toList).map (movedBehind 1 1) := by
  have taken : preAuthorize.disguised?.isSome = true := by decide +kernel
  have linesT : Text.lines ("@GetMapping(\"/a\")\n@PreAuthorize(\"hasRole('A') and hasRole('B')\")\n" ++
      "public String h() \x7b").toList = [] ++ "@GetMapping(\"/a\")".toList ::
        ([{ item := preAuthorize }].map (Padded.text Annotation.text) ++ ["public String h() \x7b".toList]) := by
    decide +kernel
  have linesU : Text.lines "@GetMapping(\"/a\")\npublic String h() \x7b".toList =
      [] ++ "@GetMapping(\"/a\")".toList :: ["public String h() \x7b".toList] := by decide +kernel
  have stacked := endpoints_stacked "A.java" (by decide +kernel) (by decide +kernel) linesT linesU
  refine stacked.1.not.2 fun plain => ?_
  rw [plain { item := preAuthorize } (by simp)] at taken
  cases taken

end Drift.Source.Java
