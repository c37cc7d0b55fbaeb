import Drift.Proofs.Outcome
import Drift.Code

namespace Drift

namespace Language

variable {l m : Language} {path : String} {detectors : List Language}

theorem accepts_iff : l.accepts path = true ↔ ∃ e ∈ l.extensions, e.toList <:+ Text.lower path.toList := by
  rw [accepts, List.any_eq_true]
  exact exists_congr fun e => and_congr_right fun _ => List.isSuffixOf_iff_suffix

theorem extension_owner : ∀ l m : Language, ∀ e ∈ l.extensions, ∀ f ∈ m.extensions, e.toList <:+ f.toList → l = m := by
  intro l m
  cases l <;> cases m <;> decide

theorem accepts_unique (first : l.accepts path = true) (second : m.accepts path = true) : l = m := by
  obtain ⟨e, here, ends⟩ := accepts_iff.1 first
  obtain ⟨f, there, alsoEnds⟩ := accepts_iff.1 second
  rcases List.suffix_or_suffix_of_suffix ends alsoEnds with inside | inside
  · exact extension_owner l m e here f there inside
  · exact (extension_owner m l f there e here inside).symm

/-- The one detector that accepts the path is found wherever it stands. -/
theorem among_eq_some_iff : among? detectors path = some l ↔ l ∈ detectors ∧ l.accepts path = true := by
  have accepted_of_found : ∀ {m}, among? detectors path = some m → m.accepts path = true := fun found =>
    List.find?_some (p := fun m : Language => m.accepts path) found
  constructor
  · intro found
    exact ⟨List.mem_of_find?_eq_some found, accepted_of_found found⟩
  · rintro ⟨mem, accepted⟩
    obtain ⟨m, found⟩ : ∃ m, among? detectors path = some m := by
      rw [← Option.isSome_iff_exists, among?, List.find?_isSome]
      exact ⟨l, mem, accepted⟩
    rw [found, accepts_unique (accepted_of_found found) accepted]

theorem among_congr {first second : List Language} (same : ∀ l, l ∈ first ↔ l ∈ second) (path : String) :
    among? first path = among? second path := by
  apply Option.ext
  intro l
  rw [among_eq_some_iff, among_eq_some_iff, same]

def knownSignatures (l : Language) (file : String) (text : List Char) : List Signature :=
  match l.signatures file text with
  | .ok found => found
  | .error _ => []

end Language

namespace Code

open Files

variable {α : Type} {t : Tree} {detectors : List Language} {root : Path} {ignored : List String}

theorem sources_congr {first second : List Language} (same : ∀ l, l ∈ first ↔ l ∈ second) (t : Tree) (root : Path)
    (ignored : List String) : sources t first root ignored = sources t second root ignored := by
  rw [sources, sources]
  congr 1
  funext paths
  congr 1
  funext p
  rw [Language.among_congr same]

/-- What is found in a file alone: nothing if no detector accepts it, or if it cannot be read. -/
def foundIn (t : Tree) (detectors : List Language) (find : Language → String → List Char → List α) (p : Path) : List α :=
  match Language.among? detectors p.text, t.readSource p with
  | some l, .ok text => find l p.text text
  | _, _ => []

section Extraction

variable {extract : Language → Path → List Char → Logged Failure (List α)}
  {find : Language → String → List Char → List α}

theorem extractFrom_found (finds : ∀ l p text, (extract l p text).outcome = .ok (find l p.text text)) {l : Language}
    {p : Path} (accepted : Language.among? detectors p.text = some l) :
    (extractFrom t extract (l, p)).outcome = .ok (foundIn t detectors find p) := by
  rw [extractFrom, foundIn, accepted]
  cases read : t.readSource p with
  | ok text => simp only [finds]
  | error e => rfl

theorem extractAll_found (finds : ∀ l p text, (extract l p text).outcome = .ok (find l p.text text))
    (paths : List Path) :
    (extractAll t extract (paths.filterMap fun p => (Language.among? detectors p.text).map fun l => (l, p))).outcome =
      .ok (paths.flatMap (foundIn t detectors find)) := by
  induction paths with
  | nil => rfl
  | cons p paths ih =>
    rw [List.filterMap_cons, List.flatMap_cons]
    cases accepted : Language.among? detectors p.text with
    | none =>
      have nothing : foundIn t detectors find p = [] := by rw [foundIn, accepted]
      rw [nothing, List.nil_append]
      exact ih
    | some l =>
      have here : (extractFrom t extract (l, p)).outcome = .ok (foundIn t detectors find p) :=
        extractFrom_found finds accepted
      rw [Option.map_some]
      simp only [extractAll]
      rw [Logged.outcome_bind_of_ok here, Logged.outcome_bind_of_ok ih]
      rfl

/-- The files of a root are gone through in the order of the walk. What is noted at the end is no part of it. -/
theorem extraction_found (finds : ∀ l p text, (extract l p text).outcome = .ok (find l p.text text)) (t : Tree)
    (detectors : List Language) (root : Path) (ignored : List String) (done : List α → Journal.Event) :
    (do
      let found ← extractAll t extract (← sources t detectors root ignored)
      Logged.note (done found)
      return found : Logged Failure (List α)).outcome =
      (files t root ignored).map fun paths => paths.flatMap (foundIn t detectors find) := by
  cases walked : files t root ignored with
  | error e =>
    have located : sources t detectors root ignored = .error e := by rw [sources, walked]; rfl
    rw [located]
    rfl
  | ok paths =>
    have located : sources t detectors root ignored =
        .ok (paths.filterMap fun p => (Language.among? detectors p.text).map fun l => (l, p)) := by
      rw [sources, walked]
      rfl
    have all : (extractAll t extract _).outcome = .ok (paths.flatMap (foundIn t detectors find)) :=
      extractAll_found finds paths
    rw [located, Logged.outcome_bind_of_ok rfl, Logged.outcome_bind_of_ok all]
    rfl

end Extraction

theorem endpoints_found (t : Tree) (detectors : List Language) (root : Path) (ignored : List String) :
    (endpoints t detectors root ignored).outcome =
      (files t root ignored).map fun paths => paths.flatMap (foundIn t detectors Language.endpoints) := by
  have finds : ∀ l p text, (fileEndpoints l p text).outcome = .ok (l.endpoints p.text text) := fun _ _ _ => rfl
  exact extraction_found finds t detectors root ignored fun found => .endpointsFound found.length

theorem signatures_found (t : Tree) (detectors : List Language) (root : Path) (ignored : List String) :
    (signatures t detectors root ignored).outcome =
      (files t root ignored).map fun paths => paths.flatMap (foundIn t detectors Language.knownSignatures) := by
  have finds : ∀ l p text, (fileSignatures l p text).outcome = .ok (l.knownSignatures p.text text) := by
    intro l p text
    rw [fileSignatures, Language.knownSignatures]
    cases l.signatures p.text text <;> rfl
  exact extraction_found finds t detectors root ignored fun found => .signaturesFound found.length

end Code

/-- Two lists of detectors for the same languages, in any order and however often, find the same detector for
each path. So they count the same languages in the same order and find the same endpoints and signatures: what
each file yields alone, file after file in the order of the walk. -/
theorem detection_of_same_languages (first second : List Language) (same : ∀ l, l ∈ first ↔ l ∈ second) :
    (∀ path, Language.among? first path = Language.among? second path) ∧
    ∀ t root ignored,
      Code.languages t first root ignored = Code.languages t second root ignored ∧
      Code.endpoints t first root ignored = Code.endpoints t second root ignored ∧
      Code.signatures t first root ignored = Code.signatures t second root ignored ∧
      (Code.endpoints t first root ignored).outcome =
        (Code.files t root ignored).map (·.flatMap (Code.foundIn t first Language.endpoints)) ∧
      (Code.signatures t first root ignored).outcome =
        (Code.files t root ignored).map (·.flatMap (Code.foundIn t first Language.knownSignatures)) := by
  refine ⟨Language.among_congr same, fun t root ignored => ?_⟩
  have sources := Code.sources_congr same t root ignored
  refine ⟨?_, ?_, ?_, Code.endpoints_found t first root ignored, Code.signatures_found t first root ignored⟩
  · rw [Code.languages, Code.languages, sources]
  · rw [Code.endpoints, Code.endpoints, sources]
  · rw [Code.signatures, Code.signatures, sources]

theorem detection_of_same_languages_repeated :
    (∀ l, l ∈ [Language.go, .python] ↔ l ∈ [Language.python, .go, .python]) ∧
    (∀ path, Language.among? [.go, .python] path = Language.among? [.python, .go, .python] path) ∧
    ∀ t root ignored,
      Code.languages t [.go, .python] root ignored = Code.languages t [.python, .go, .python] root ignored ∧
      Code.endpoints t [.go, .python] root ignored = Code.endpoints t [.python, .go, .python] root ignored ∧
      Code.signatures t [.go, .python] root ignored = Code.signatures t [.python, .go, .python] root ignored ∧
      (Code.endpoints t [.go, .python] root ignored).outcome =
        (Code.files t root ignored).map (·.flatMap (Code.foundIn t [.go, .python] Language.endpoints)) ∧
      (Code.signatures t [.go, .python] root ignored).outcome =
        (Code.files t root ignored).map (·.flatMap (Code.foundIn t [.go, .python] Language.knownSignatures)) := by
  have same : ∀ l, l ∈ [Language.go, .python] ↔ l ∈ [Language.python, .go, .python] := by
    intro l
    cases l <;> decide
  exact ⟨same, detection_of_same_languages [.go, .python] [.python, .go, .python] same⟩

end Drift
