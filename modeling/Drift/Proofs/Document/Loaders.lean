import Drift.Foundation
import Drift.Proofs.Outcome
import Drift.Proofs.Yaml.Values
import Drift.Settings.Load

namespace Drift

open Files

namespace Document

/-- The bytes of a file on which the reading of records ends in a failure that is not foreseen: they are no text, the
text has no value because of another defect than its form, or a key of the outermost mapping is no text. -/
inductive Unforeseen (room : Room) (bytes : List UInt8) : Prop where
  | encoding (undecoded : Text.decodeUtf8? bytes = none)
  | value {cs : List Char} {e : Yaml.Failure} (decoded : Text.decodeUtf8? bytes = some cs)
      (fails : Yaml.load room (Text.unifyNewlines cs) = .error e) (formed : e ≠ .malformed)
      (defect : Yaml.Defect room (Text.unifyNewlines cs) e)
  | key {cs : List Char} {v : Stored} {entries : List (Value × Value)} {k w : Value}
      (decoded : Text.decodeUtf8? bytes = some cs) (loaded : Yaml.load room (Text.unifyNewlines cs) = .ok v)
      (mapping : v.store.entries? v.value = some entries) (mem : (k, w) ∈ entries) (nameless : k.text? = none)

section

variable {room : Room} {bytes : List UInt8} {cs : List Char}

theorem unforeseen_error_iff {e : Yaml.Failure} (decoded : Text.decodeUtf8? bytes = some cs)
    (fails : Yaml.load room (Text.unifyNewlines cs) = .error e) : Unforeseen room bytes ↔ e ≠ .malformed := by
  constructor
  · intro unforeseen
    cases unforeseen with
    | encoding undecoded =>
      rw [decoded] at undecoded
      cases undecoded
    | value decoded' fails' formed =>
      obtain rfl := Option.some.inj (decoded.symm.trans decoded')
      obtain rfl := Except.error.inj (fails.symm.trans fails')
      exact formed
    | key decoded' loaded =>
      obtain rfl := Option.some.inj (decoded.symm.trans decoded')
      rw [fails] at loaded
      cases loaded
  · exact fun formed => .value decoded fails formed (Yaml.load_error fails)

theorem unforeseen_ok_iff {v : Stored} (decoded : Text.decodeUtf8? bytes = some cs)
    (loaded : Yaml.load room (Text.unifyNewlines cs) = .ok v) :
    Unforeseen room bytes ↔ ∃ entries, v.store.entries? v.value = some entries ∧ ∃ e ∈ entries, e.1.text? = none := by
  constructor
  · intro unforeseen
    cases unforeseen with
    | encoding undecoded =>
      rw [decoded] at undecoded
      cases undecoded
    | value decoded' fails =>
      obtain rfl := Option.some.inj (decoded.symm.trans decoded')
      rw [loaded] at fails
      cases fails
    | key decoded' loaded' mapping mem nameless =>
      obtain rfl := Option.some.inj (decoded.symm.trans decoded')
      obtain rfl := Except.ok.inj (loaded.symm.trans loaded')
      exact ⟨_, mapping, _, mem, nameless⟩
  · rintro ⟨entries, mapping, ⟨k, w⟩, mem, nameless⟩
    exact .key decoded loaded mapping mem nameless

end

theorem isExpected_yaml_iff {e : Yaml.Failure} :
    (RecordFailure.unreadable (.yaml e)).isExpected = true ↔ e = .malformed := by
  cases e <;> simp [RecordFailure.isExpected]

theorem isNamed_eq_false_iff {e : Value × Value} : isNamed e = false ↔ e.1.text? = none := by
  obtain ⟨k, w⟩ := e
  cases k <;> simp [isNamed, Value.text?]

theorem entriesOrNone_of_entries? {v : Stored} {entries : List (Value × Value)}
    (mapping : v.store.entries? v.value = some entries) : entriesOrNone v = some entries := by
  rw [entriesOrNone]
  cases value : v.value with
  | null =>
    rw [value] at mapping
    cases mapping
  | _ =>
    rw [value] at mapping
    exact mapping

theorem entries?_or_nil_of_entriesOrNone {v : Stored} {entries : List (Value × Value)}
    (read : entriesOrNone v = some entries) : v.store.entries? v.value = some entries ∨ entries = [] := by
  rw [entriesOrNone] at read
  split at read
  · cases read
    exact .inr rfl
  · exact .inl read

section

variable {t : Tree} {p : Path}

theorem readValue_of_unread {e : FileError} (file : t.read p = .error e) : readValue t p = .error (.file e) := by
  rw [readValue, Tree.readText, file]
  rfl

theorem readValue_of_undecoded {bytes : List UInt8} (file : t.read p = .ok bytes)
    (undecoded : Text.decodeUtf8? bytes = none) : readValue t p = .error .encoding := by
  simp [readValue, Tree.readText, file, undecoded, Failure.ofReading]

theorem readValue_of_decoded {bytes : List UInt8} {cs : List Char} (file : t.read p = .ok bytes)
    (decoded : Text.decodeUtf8? bytes = some cs) :
    readValue t p = (Yaml.load t.room (Text.unifyNewlines cs)).mapError .yaml := by
  simp [readValue, Tree.readText, file, decoded]

end

theorem readRecord_of_ok {α : Type} {t : Tree} {p : Path} {read : Record.Fields → Checked α} {v : Stored}
    (value : readValue t p = .ok v) :
    (∃ e, readRecord t p read = .error e ∧ e.isExpected = false) ↔
      ∃ entries, v.store.entries? v.value = some entries ∧ ∃ e ∈ entries, e.1.text? = none := by
  simp only [readRecord, value]
  constructor
  · rintro ⟨e, fails, unexpected⟩
    cases fields : entriesOrNone v with
    | none =>
      rw [fields] at fails
      cases fails
      cases unexpected
    | some entries =>
      simp only [fields] at fails
      split at fails
      · split at fails <;> cases fails
        cases unexpected
      · rename_i unnamed
        obtain ⟨entry, mem, nameless⟩ := List.all_eq_false.1 (Bool.eq_false_iff.2 unnamed)
        have nameless := isNamed_eq_false_iff.1 (Bool.eq_false_iff.2 nameless)
        rcases entries?_or_nil_of_entriesOrNone fields with mapping | rfl
        · exact ⟨entries, mapping, entry, mem, nameless⟩
        · cases mem
  · rintro ⟨entries, mapping, entry, mem, nameless⟩
    have unnamed : entries.all isNamed = false :=
      List.all_eq_false.2 ⟨entry, mem, Bool.eq_false_iff.1 (isNamed_eq_false_iff.2 nameless)⟩
    refine ⟨.namelessField, ?_, rfl⟩
    simp [entriesOrNone_of_entries? mapping, unnamed]

/-- Reading a record fails in a way that is not foreseen if and only if the bytes of the file are unforeseen. -/
theorem readRecord_unexpected_iff {α : Type} {t : Tree} {p : Path} {read : Record.Fields → Checked α} :
    (∃ e, readRecord t p read = .error e ∧ e.isExpected = false) ↔
      ∃ bytes, t.read p = .ok bytes ∧ Unforeseen t.room bytes := by
  cases file : t.read p with
  | error e => simp [readRecord, readValue_of_unread file, RecordFailure.isExpected]
  | ok bytes =>
    simp only [Except.ok.injEq, exists_eq_left']
    cases decoded : Text.decodeUtf8? bytes with
    | none => exact iff_of_true ⟨_, by rw [readRecord, readValue_of_undecoded file decoded], rfl⟩ (.encoding decoded)
    | some cs =>
      have value := readValue_of_decoded file decoded
      cases loaded : Yaml.load t.room (Text.unifyNewlines cs) with
      | error e =>
        rw [loaded] at value
        rw [unforeseen_error_iff decoded loaded, readRecord, value]
        simp [mapError_error, ← isExpected_yaml_iff]
      | ok v =>
        rw [loaded] at value
        rw [unforeseen_ok_iff decoded loaded, readRecord_of_ok value]

end Document

def Documented {α : Type} (kind : Document.RecordFailure → Failure) (x : Except Failure α) : Prop :=
  (∃ a, x = .ok a) ∨ ∃ e, x = .error (kind e) ∧ e.isExpected = true

def Escapes (t : Tree) (p : Path) : Prop :=
  (∃ e, t.probeExists p = .error e) ∨ ∃ bytes, t.read p = .ok bytes ∧ Document.Unforeseen t.room bytes

theorem probeExists_of_read {t : Tree} {p : Path} {bytes : List UInt8} (file : t.read p = .ok bytes) :
    t.probeExists p = .ok true := by
  rw [Tree.read] at file
  rw [Tree.probeExists, Tree.probe]
  cases found : t.find p with
  | ok e => rfl
  | error e =>
    rw [found] at file
    cases file

def fromFile {α : Type} (t : Tree) (p : Path) (absent : α) (read : Except Failure α) : Except Failure α := do
  if ← Failure.ofProbe (t.probeExists p) then read else return absent

section

variable {α β : Type} {t : Tree} {p : Path} {absent : α} {read : Record.Fields → Checked β} {f : β → α}
  {kind : Document.RecordFailure → Failure}

theorem documented_read_iff (injective : ∀ d e, kind d = kind e → d = e) :
    Documented kind (((Document.readRecord t p read).mapError kind).map f) ↔
      ¬ ∃ e, Document.readRecord t p read = .error e ∧ e.isExpected = false := by
  cases Document.readRecord t p read with
  | ok b => exact iff_of_true (.inl ⟨f b, rfl⟩) (by simp)
  | error d =>
    constructor
    · rintro (⟨a, fine⟩ | ⟨e, fails, expected⟩) ⟨d', same, unexpected⟩
      · cases fine
      · cases same
        rw [injective d e (Except.error.inj fails), expected] at unexpected
        cases unexpected
    · intro foreseen
      refine .inr ⟨d, rfl, ?_⟩
      rw [← Bool.not_eq_false]
      exact fun unexpected => foreseen ⟨d, rfl, unexpected⟩

theorem documented_fromFile_iff (injective : ∀ d e, kind d = kind e → d = e)
    (probing : ∀ d e, kind d ≠ .unreachable e) :
    Documented kind (fromFile t p absent (((Document.readRecord t p read).mapError kind).map f)) ↔
      ¬ Escapes t p := by
  rw [Escapes]
  cases asked : t.probeExists p with
  | error e =>
    have fails : ∀ x, fromFile t p absent x = .error (.unreachable e) := by
      intro x
      simp [fromFile, Failure.ofProbe, asked, mapError_error, bind, Except.bind]
    simp [Documented, fails, fun d => Ne.symm (probing d e)]
  | ok there =>
    cases there with
    | false =>
      have fine : ∀ x, fromFile t p absent x = .ok absent := by
        intro x
        simp [fromFile, Failure.ofProbe, asked, mapError_ok, bind, Except.bind, pure, Except.pure]
      refine iff_of_true (.inl ⟨absent, fine _⟩) ?_
      rintro (⟨e, unasked⟩ | ⟨bytes, file, -⟩)
      · cases unasked
      · rw [probeExists_of_read file] at asked
        cases asked
    | true =>
      have reads : ∀ x, fromFile t p absent x = x := by
        intro x
        simp [fromFile, Failure.ofProbe, asked, mapError_ok, bind, Except.bind]
      rw [reads, documented_read_iff injective, Document.readRecord_unexpected_iff]
      simp

end

theorem Settings.load_eq_fromFile (t : Tree) (root : Path) :
    (Settings.load t root).outcome =
      let file := root.child Failure.settingsFile
      fromFile t file {} (((Document.readRecord t file Settings.read).mapError .settings).map id) := by
  rw [Settings.load, Logged.outcome_bind, Logged.outcome_ofExcept]
  dsimp only
  rw [fromFile]
  cases t.probeExists (root.child Failure.settingsFile) with
  | error e => rfl
  | ok there =>
    cases there with
    | false => rfl
    | true =>
      cases Document.readRecord t (root.child Failure.settingsFile) Settings.read <;> rfl

theorem Foundation.descriptor?_eq_fromFile (t : Tree) (foundation : Path) (moduleName : String) :
    Foundation.descriptor? t foundation moduleName =
      let file := Foundation.descriptorPath foundation moduleName
      fromFile t file none (((Document.readRecord t file Descriptor.read).mapError (.descriptor file.name)).map
        fun d => some (Foundation.named moduleName d)) := by
  rw [Foundation.descriptor?, fromFile]
  generalize Foundation.descriptorPath foundation moduleName = file
  cases t.probeExists file with
  | error e => rfl
  | ok there =>
    cases there with
    | false => rfl
    | true =>
      cases Document.readRecord t file Descriptor.read <;> rfl

example : Document.Unforeseen {} [0xFF] := .encoding (by decide)

end Drift
