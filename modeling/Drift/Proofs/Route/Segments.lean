import Drift.Proofs.Text.Characters
import Drift.Proofs.Text.Joining
import Drift.Route.Path

namespace Drift.Route

/-- A character of a literal segment: neither blank nor a sign that paths and parameters are made with. -/
def isLiteralChar (c : Char) : Bool := !(Text.isBlank c || ['/', ':', '<', '>', '{', '}'].contains c)

inductive Segment where
  | literal (text : Text.Run isLiteralChar)
  | parameter (name : Text.Run Text.isWord)
  deriving DecidableEq

/-- The ways to write a parameter: `:name`, `{name}`, `<name>` and `<converter:name>`. -/
inductive Spelling where
  | colon | braces | angles
  | converted (converter : Text.Run Text.isWord)
  deriving DecidableEq

def Spelling.write : Spelling → List Char → List Char
  | colon, n => ':' :: n
  | braces, n => braced n
  | angles, n => '<' :: (n ++ ['>'])
  | converted c, n => '<' :: (c.text ++ ':' :: (n ++ ['>']))

def Segment.write (spelling : Spelling) : Segment → List Char
  | literal t => t.text
  | parameter n => spelling.write n.text

def write (spelling : Spelling) (segments : List Segment) : List Char :=
  '/' :: Text.joinWith ['/'] (segments.map (Segment.write spelling))

def canonical (segments : List Segment) : List Char := write .braces segments

theorem isLiteralChar_iff {c : Char} : isLiteralChar c = true ↔
    Text.isBlank c = false ∧ c ≠ '/' ∧ c ≠ ':' ∧ c ≠ '<' ∧ c ≠ '>' ∧ c ≠ '{' ∧ c ≠ '}' := by
  simp [isLiteralChar]

theorem not_sign_of_isWord {c : Char} (word : Text.isWord c = true) :
    c ≠ '/' ∧ c ≠ ':' ∧ c ≠ '<' ∧ c ≠ '>' ∧ c ≠ '{' ∧ c ≠ '}' := by
  refine ⟨?_, ?_, ?_, ?_, ?_, ?_⟩ <;> (rintro rfl; revert word; decide)

/-- A character of a written segment: of a literal, of a name, or a sign of the spelling. -/
theorem mem_write {spelling : Spelling} {s : Segment} {c : Char} (mem : c ∈ s.write spelling) :
    isLiteralChar c = true ∨ Text.isWord c = true ∨ c ∈ [':', '{', '}', '<', '>'] := by
  cases s with
  | literal t => exact .inl (t.fits c mem)
  | parameter n =>
    have name : c ∈ n.text → Text.isWord c = true := n.fits c
    cases spelling with
    | converted k =>
      have converter : c ∈ k.text → Text.isWord c = true := k.fits c
      simp only [Segment.write, Spelling.write, List.mem_cons, List.mem_append, List.not_mem_nil] at mem ⊢
      grind
    | _ =>
      simp only [Segment.write, Spelling.write, braced, List.mem_cons, List.mem_append, List.cons_append,
        List.not_mem_nil] at mem ⊢
      grind

theorem isBlank_of_mem_write {spelling : Spelling} {s : Segment} {c : Char} (mem : c ∈ s.write spelling) :
    Text.isBlank c = false := by
  rcases mem_write mem with literal | word | sign
  · exact (isLiteralChar_iff.1 literal).1
  · exact Text.isBlank_of_isWord word
  · have signs : [':', '{', '}', '<', '>'].all (fun c => !Text.isBlank c) = true := by decide
    simpa using List.all_eq_true.1 signs c sign

theorem slash_not_mem_write {spelling : Spelling} {s : Segment} : '/' ∉ s.write spelling := by
  intro mem
  rcases mem_write mem with literal | word | sign
  · exact (isLiteralChar_iff.1 literal).2.1 rfl
  · exact (not_sign_of_isWord word).1 rfl
  · revert sign
    decide

theorem write_ne_nil {spelling : Spelling} {s : Segment} : s.write spelling ≠ [] := by
  cases s with
  | literal t => exact t.nonempty
  | parameter n => cases spelling <;> simp [Segment.write, Spelling.write, braced]

/-- A literal holds no brace, so the canonical texts of segments tell them apart. -/
theorem write_braces_injective {s t : Segment} (h : s.write .braces = t.write .braces) : s = t := by
  have noBrace : ∀ (l : Text.Run isLiteralChar) (n : List Char), l.text ≠ braced n := by
    intro l n same
    have plain := l.fits '{' (by simp [same, braced])
    exact absurd plain (by decide)
  cases s with
  | literal l =>
    cases t with
    | literal m => rw [Text.Run.ext h]
    | parameter n => exact absurd h (noBrace l n.text)
  | parameter n =>
    cases t with
    | literal l => exact absurd h.symm (noBrace l n.text)
    | parameter m =>
      have inner : n.text = m.text := by simpa [Segment.write, Spelling.write, braced] using h
      rw [Text.Run.ext inner]

theorem filled_of_mem_written {spelling : Spelling} {segments : List Segment} {w : List Char}
    (mem : w ∈ segments.map (Segment.write spelling)) : w ≠ [] := by
  obtain ⟨s, -, rfl⟩ := List.mem_map.1 mem
  exact write_ne_nil

theorem noSlash_of_mem_written {spelling : Spelling} {segments : List Segment} {w : List Char}
    (mem : w ∈ segments.map (Segment.write spelling)) : '/' ∉ w := by
  obtain ⟨s, -, rfl⟩ := List.mem_map.1 mem
  exact slash_not_mem_write

theorem canonical_injective {ss ts : List Segment} (h : canonical ss = canonical ts) : ss = ts := by
  have joined : Text.joinWith ['/'] (ss.map (Segment.write .braces)) =
      Text.joinWith ['/'] (ts.map (Segment.write .braces)) := List.tail_eq_of_cons_eq h
  have texts : ss.map (Segment.write .braces) = ts.map (Segment.write .braces) :=
    Text.joinWith_injective (fun _ => filled_of_mem_written) (fun _ => filled_of_mem_written)
      (fun _ => noSlash_of_mem_written) (fun _ => noSlash_of_mem_written) joined
  exact (List.map_inj_right fun _ _ => write_braces_injective).1 texts

/-- A path as someone wrote it: each parameter in a spelling of its own, a slash in front and one behind
or not, and blanks around. -/
structure Written where
  front : List Char
  back : List Char
  frontBlank : ∀ c ∈ front, Text.isBlank c = true
  backBlank : ∀ c ∈ back, Text.isBlank c = true
  leading : Bool
  trailing : Bool
  pieces : List (Spelling × Segment)

namespace Written

def segments (p : Written) : List Segment := p.pieces.map (·.2)

def slash (there : Bool) : List Char := if there then ['/'] else []

def core (p : Written) : List Char :=
  slash p.leading ++ (Text.joinWith ['/'] (p.pieces.map fun (spelling, s) => s.write spelling) ++ slash p.trailing)

def text (p : Written) : List Char := p.front ++ p.core ++ p.back

def plain (spelling : Spelling) (segments : List Segment) : Written where
  front := []
  back := []
  frontBlank := by simp
  backBlank := by simp
  leading := true
  trailing := false
  pieces := segments.map fun s => (spelling, s)

theorem text_plain (spelling : Spelling) (segments : List Segment) :
    (plain spelling segments).text = write spelling segments := by
  have pieces : ((plain spelling segments).pieces.map fun (i : Spelling × Segment) => i.2.write i.1) =
      segments.map (Segment.write spelling) := by
    rw [plain, List.map_map]
    rfl
  rw [text, core, pieces]
  simp [plain, slash, write]

theorem segments_plain (spelling : Spelling) (segments : List Segment) :
    (plain spelling segments).segments = segments := by
  simp [plain, Written.segments, Function.comp_def]

end Written

end Drift.Route
