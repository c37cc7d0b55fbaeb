import Drift.Proofs.Outcome
import Drift.Proofs.Recognizer.Readings
import Drift.Proofs.Text.Joining
import Drift.Source.Extract

namespace Drift.Source

open Recognizer

def AllKnown (words : List String) : Prop := ∀ w ∈ words, (Visibility.ofName? w).isSome

instance (words : List String) : Decidable (AllKnown words) := inferInstanceAs (Decidable (∀ w ∈ words, _))

theorem values_word (ws : List String) : (do let v ← oneOf ws; gap1; return v : Recognizer String).Values (· ∈ ws) :=
  Values.bind (.oneOf ws) fun _ mem => Values.after fun _ => Values.pure mem

namespace Java

instance : Forward methodMark := Forward.bind _ _

instance (p : Char → Bool) : Forward (typeName p) := Forward.bind _ _

instance : Forward arrayMarks := Forward.spanned _

theorem methodHead_visibility :
    methodHead.Values fun m => ∀ w ∈ m.visibility, w ∈ ["public", "private", "protected"] := by
  apply Values.after
  intro _
  apply Values.after
  intro _
  apply Values.bind (.optional (values_word _))
  intro visibility known
  -- what stands behind the word leaves it as it is
  repeat
    apply Values.after
    intro _
  exact Values.pure known

theorem method_visibility {line : List Char} {m : Method} {w : String} (reads : method? line = some m)
    (mem : m.visibility = some w) : w ∈ ["public", "private", "protected"] := by
  rw [method?, Option.filter_eq_some_iff] at reads
  exact methodHead_visibility.of_atStart reads.1 w mem

end Java

namespace JavaScript

instance : Forward typeParameters := Forward.skip _

instance : Forward parameterText := Forward.bind _ _

instance : Forward resultType := Forward.optional _

theorem functionForm_visibility : functionForm.Values fun d => d.visibility = none := by
  repeat
    apply Values.after
    intro _
  exact Values.pure rfl

theorem arrowForm_visibility : arrowForm.Values fun d => d.visibility = none := by
  repeat
    apply Values.after
    intro _
  exact Values.pure rfl

theorem methodForm_visibility :
    methodForm.Values fun d => ∀ w ∈ d.visibility, w ∈ ["public", "private", "protected"] := by
  apply Values.bind (.optional (values_word _))
  intro visibility known
  repeat
    apply Values.after
    intro _
  exact Values.pure known

theorem declared_visibility {stripped : List Char} {d : Declared} {w : String} (reads : declared? stripped = some d)
    (mem : d.visibility = some w) : w ∈ ["public", "private", "protected"] := by
  simp only [declared?, Option.orElse_eq_orElse, Option.orElse_eq_or, Option.or_eq_some_iff] at reads
  rcases reads with function | ⟨-, arrow | ⟨-, method⟩⟩
  · rw [functionForm_visibility.of_atStart function] at mem
    cases mem
  · rw [arrowForm_visibility.of_atStart arrow] at mem
    cases mem
  · exact methodForm_visibility.of_atStart method w mem

end JavaScript

namespace Ruby

instance : Forward parenthesised := Forward.bind _ _

theorem definition_visibility : definition.Values fun d => ∀ w ∈ d.visibility, w ∈ visibilityWords := by
  apply Values.bind (.optional (values_word _))
  intro visibility known
  repeat
    apply Values.after
    intro _
  exact Values.pure known

theorem marker_visibility : marker.Values (· ∈ visibilityWords) := by
  apply Values.bind (.oneOf _)
  intro word known
  apply Values.after
  intro _
  apply Values.after
  intro _
  exact Values.pure known

end Ruby

namespace CSharp

instance : Forward resultType := Forward.bind _ _

def visibilityWords : List String := ["public", "private", "protected", "internal"]

theorem methodHead_visibility : methodHead.Values fun m => ∀ w ∈ m.visibility, w ∈ visibilityWords := by
  apply Values.after
  intro _
  apply Values.after
  intro _
  apply Values.bind (.optional (values_word _))
  intro visibility known
  repeat
    apply Values.after
    intro _
  exact Values.pure known

def DeclaresInternal (line : List Char) : Prop :=
  ∃ m, method? line = some m ∧ m.visibility = some "internal" ∧ (enclosed? m.rest).isSome = true

theorem method_visibility {line : List Char} {m : Java.Method} {w : String} (reads : method? line = some m)
    (mem : m.visibility = some w) : w ∈ visibilityWords := by
  rw [method?, Option.filter_eq_some_iff] at reads
  exact methodHead_visibility.of_atStart reads.1 w mem

theorem ofName_visibilityWord {w : String} (mem : w ∈ visibilityWords) :
    Visibility.ofName? w = none ↔ w = "internal" := by
  have words : ∀ w ∈ visibilityWords, (Visibility.ofName? w = none ↔ w = "internal") := by decide +kernel
  exact words w mem

theorem visibilityOf_error {w : Option String} {e : UnknownVisibility} (known : ∀ v ∈ w, v ∈ visibilityWords) :
    visibilityOf w = .error e ↔ w = some "internal" ∧ e = ⟨"internal"⟩ := by
  cases w with
  | none => simp [visibilityOf]
  | some w =>
    have named := ofName_visibilityWord (known w rfl)
    cases h : Visibility.ofName? w with
    | none =>
      have same := named.1 h
      subst same
      simp [visibilityOf, h, eq_comm]
    | some v =>
      have other : w ≠ "internal" := by
        intro same
        rw [named.2 same] at h
        cases h
      simp [visibilityOf, h, other]

theorem lineSignatures_error {file : String} {n : Nat} {line : List Char} {e : UnknownVisibility} :
    lineSignatures file n line = .error e ↔ DeclaresInternal line ∧ e = ⟨"internal"⟩ := by
  rw [lineSignatures, DeclaresInternal]
  cases reads : method? line with
  | none => simp
  | some m =>
    cases closed : enclosed? m.rest with
    | none => simp [closed]
    | some parts =>
      have fails := visibilityOf_error (e := e) fun w mem => method_visibility reads mem
      cases h : visibilityOf m.visibility with
      | error d =>
        rw [h] at fails
        simpa [h, closed, bind, Except.bind] using fails
      | ok v =>
        rw [h] at fails
        simpa [h, closed, bind, Except.bind, pure, Except.pure] using fails

theorem signatures_error {file : String} {text : List Char} {e : UnknownVisibility} :
    signatures file text = .error e ↔ (∃ line ∈ Text.lines text, DeclaresInternal line) ∧ e = ⟨"internal"⟩ := by
  have failing : ∀ (i : Nat × List Char) (e : UnknownVisibility),
      lineSignatures file i.1 i.2 = .error e ↔ DeclaresInternal i.2 ∧ e = ⟨"internal"⟩ :=
    fun i e => lineSignatures_error
  have somewhere :
      (∃ i ∈ Text.numberedLines text, DeclaresInternal i.2) ↔ ∃ line ∈ Text.lines text, DeclaresInternal line := by
    constructor
    · rintro ⟨⟨n, line⟩, mem, declares⟩
      exact ⟨line, Text.mem_lines_iff.2 ⟨n, mem⟩, declares⟩
    · rintro ⟨line, mem, declares⟩
      obtain ⟨n, mem⟩ := Text.mem_lines_iff.1 mem
      exact ⟨(n, line), mem, declares⟩
  rw [signatures, error_of_bind_pure, ← somewhere]
  exact mapM_error_iff failing

example : (signatures "A.cs" "internal void F() \x7b".toList).isOk = false := by decide +kernel

end CSharp

end Drift.Source

namespace Drift.Language

open Source

/-- The visibility word that a language reads on a line, in front of a declaration or alone. -/
def visibilityWord? (l : Language) (line : List Char) : Option String :=
  match l with
  | .go | .python => none
  | .javascript => (JavaScript.declared? (Text.trim line)).bind (·.visibility)
  | .java => (Java.method? line).bind (·.visibility)
  | .csharp => (CSharp.method? line).bind (·.visibility)
  | .ruby => Ruby.marker.atStart (Text.trim line) <|> (Ruby.definition.atStart (Text.trim line)).bind (·.visibility)

theorem visibilityWord_unknown {l : Language} {line : List Char} {w : String}
    (reads : l.visibilityWord? line = some w) :
    Visibility.ofName? w = none ↔ l = .csharp ∧ w = "internal" := by
  have known : l ≠ .csharp → ∀ ws : List String, AllKnown ws → w ∈ ws →
      (Visibility.ofName? w = none ↔ l = .csharp ∧ w = "internal") := by
    intro other ws all mem
    have named := all w mem
    constructor
    · intro none
      rw [none] at named
      cases named
    · exact fun both => absurd both.1 other
  -- each language but C# reads words from a list of its own, all of which have a name
  cases l with
  | go => cases reads
  | python => cases reads
  | javascript =>
    obtain ⟨d, declared, word⟩ := Option.bind_eq_some_iff.1 reads
    exact known (by decide) _ (by decide +kernel) (JavaScript.declared_visibility declared word)
  | java =>
    obtain ⟨m, method, word⟩ := Option.bind_eq_some_iff.1 reads
    exact known (by decide) _ (by decide +kernel) (Java.method_visibility method word)
  | csharp =>
    obtain ⟨m, method, word⟩ := Option.bind_eq_some_iff.1 reads
    rw [CSharp.ofName_visibilityWord (CSharp.method_visibility method word)]
    simp
  | ruby =>
    simp only [visibilityWord?, Option.orElse_eq_orElse, Option.orElse_eq_or, Option.or_eq_some_iff] at reads
    rcases reads with marker | ⟨-, inline⟩
    · exact known (by decide) _ (by decide +kernel) (Ruby.marker_visibility.of_atStart marker)
    · obtain ⟨d, definition, word⟩ := Option.bind_eq_some_iff.1 inline
      exact known (by decide) _ (by decide +kernel) (Ruby.definition_visibility.of_atStart definition w word)

/-- Reading the signatures of a file fails in one case only: the file is read as C# and declares a method
that is `internal`. That is the only word read for a visibility, in any of the languages, that is the name
of none. -/
theorem signatures_fail_iff (l : Language) (file : String) (text : List Char) (e : CSharp.UnknownVisibility) :
    (l.signatures file text = .error e ↔
      l = .csharp ∧ (∃ line ∈ Text.lines text, CSharp.DeclaresInternal line) ∧ e = ⟨"internal"⟩) ∧
    ∀ line w, l.visibilityWord? line = some w →
      (Visibility.ofName? w = none ↔ l = .csharp ∧ w = "internal") := by
  refine ⟨?_, fun line w => visibilityWord_unknown⟩
  cases l with
  | csharp => simp [signatures, CSharp.signatures_error]
  | _ => simp [signatures]

end Drift.Language
