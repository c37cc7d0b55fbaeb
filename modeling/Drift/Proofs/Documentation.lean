import Drift.Documentation
import Drift.Proofs.Document.Loaders
import Drift.Proofs.Document.OpenApi
import Drift.Proofs.Yaml.Values

namespace Drift

open Files

namespace Document

def yield : Except EndpointsFailure (List Endpoint) → List Endpoint
  | .ok found => found
  | .error _ => []

/-- The bytes of an OpenAPI document that is not passed over: the text has no value because of another defect than its
form and than a scalar out of range, or a schema in it has a key that is no scalar of JSON or is nested too deeply. -/
inductive Ruinous (room : Room) (file : String) (bytes : List UInt8) : Prop where
  | value {cs : List Char} {e : Yaml.Failure} (decoded : Text.decodeUtf8? bytes = some cs)
      (fails : Yaml.load room (Text.unifyNewlines cs) = .error e) (formed : e ≠ .malformed) (fitting : ∀ u, e ≠ .unfit u)
      (defect : Yaml.Defect room (Text.unifyNewlines cs) e)
  | key {cs : List Char} {v : Stored} {entries : List (Value × Value)} (decoded : Text.decodeUtf8? bytes = some cs)
      (loaded : Yaml.load room (Text.unifyNewlines cs) = .ok v) (mapping : v.store.entries? v.value = some entries)
      (fails : OpenApi.endpoints v.store file entries = .error .badKey) (odd : Json.HasOddKey v.store v.value)
  | depth {cs : List Char} {v : Stored} {entries : List (Value × Value)} (decoded : Text.decodeUtf8? bytes = some cs)
      (loaded : Yaml.load room (Text.unifyNewlines cs) = .ok v) (mapping : v.store.entries? v.value = some entries)
      (fails : OpenApi.endpoints v.store file entries = .error .tooDeep)

theorem readOutline_expected {t : Tree} {p : Path} :
    FailsWith (fun e => e.isExpected = true) (readOutline t p) := by
  rw [readOutline]
  split
  · rename_i e _
    cases e <;> exact .error rfl
  · exact .ok _

theorem isExpected_yaml_eq_false_iff {e : Yaml.Failure} :
    (EndpointsFailure.unreadable (.yaml e)).isExpected = false ↔ e ≠ .malformed ∧ ∀ u, e ≠ .unfit u := by
  cases e <;> simp [EndpointsFailure.isExpected]

theorem isExpected_schema_eq_false_iff {e : Json.Failure} (ordered : e ≠ .unsortedKeys) :
    (EndpointsFailure.schema e).isExpected = false ↔ e = .badKey ∨ e = .tooDeep := by
  cases e <;> simp [EndpointsFailure.isExpected] at ordered ⊢

section

variable {room : Room} {file : String} {bytes : List UInt8} {cs : List Char}

theorem not_ruinous_of_undecoded (undecoded : Text.decodeUtf8? bytes = none) : ¬ Ruinous room file bytes := by
  intro ruinous
  cases ruinous with
  | value decoded | key decoded | depth decoded =>
    rw [undecoded] at decoded
    cases decoded

theorem ruinous_error_iff {e : Yaml.Failure} (decoded : Text.decodeUtf8? bytes = some cs)
    (fails : Yaml.load room (Text.unifyNewlines cs) = .error e) :
    Ruinous room file bytes ↔ e ≠ .malformed ∧ ∀ u, e ≠ .unfit u := by
  constructor
  · intro ruinous
    cases ruinous with
    | value decoded' fails' formed fitting =>
      obtain rfl := Option.some.inj (decoded.symm.trans decoded')
      obtain rfl := Except.error.inj (fails.symm.trans fails')
      exact ⟨formed, fitting⟩
    | key decoded' loaded | depth decoded' loaded =>
      obtain rfl := Option.some.inj (decoded.symm.trans decoded')
      rw [fails] at loaded
      cases loaded
  · rintro ⟨formed, fitting⟩
    exact .value decoded fails formed fitting (Yaml.load_error fails)

theorem ruinous_ok_iff {v : Stored} (decoded : Text.decodeUtf8? bytes = some cs)
    (loaded : Yaml.load room (Text.unifyNewlines cs) = .ok v) :
    Ruinous room file bytes ↔ ∃ entries, v.store.entries? v.value = some entries ∧
      ∃ e, OpenApi.endpoints v.store file entries = .error e ∧ (e = .badKey ∨ e = .tooDeep) := by
  constructor
  · intro ruinous
    cases ruinous with
    | value decoded' fails =>
      obtain rfl := Option.some.inj (decoded.symm.trans decoded')
      rw [loaded] at fails
      cases fails
    | key decoded' loaded' mapping fails =>
      obtain rfl := Option.some.inj (decoded.symm.trans decoded')
      obtain rfl := Except.ok.inj (loaded.symm.trans loaded')
      exact ⟨_, mapping, _, fails, .inl rfl⟩
    | depth decoded' loaded' mapping fails =>
      obtain rfl := Option.some.inj (decoded.symm.trans decoded')
      obtain rfl := Except.ok.inj (loaded.symm.trans loaded')
      exact ⟨_, mapping, _, fails, .inr rfl⟩
  · rintro ⟨entries, mapping, e, fails, rfl | rfl⟩
    · have explained := OpenApi.endpoints_failsWith file entries _ fails
      exact .key decoded loaded mapping fails ((OpenApi.explains_of_entries? mapping _ explained).2 rfl)
    · exact .depth decoded loaded mapping fails

end

theorem readOpenApi_of_ok {t : Tree} {p : Path} {v : Stored} (value : readValue t p = .ok v) :
    (∃ e, readOpenApi t p = .error e ∧ e.isExpected = false) ↔
      ∃ entries, v.store.entries? v.value = some entries ∧
        ∃ e, OpenApi.endpoints v.store p.text entries = .error e ∧ (e = .badKey ∨ e = .tooDeep) := by
  simp only [readOpenApi, value]
  constructor
  · rintro ⟨d, fails, unexpected⟩
    cases fields : entriesOrNone v with
    | none =>
      rw [fields] at fails
      cases fails
      cases unexpected
    | some entries =>
      simp only [fields] at fails
      obtain ⟨e, inside, rfl⟩ := error_of_mapError fails
      have ordered := (OpenApi.endpoints_failsWith p.text entries e inside).1
      rcases entries?_or_nil_of_entriesOrNone fields with mapping | rfl
      · exact ⟨entries, mapping, e, inside, (isExpected_schema_eq_false_iff ordered).1 unexpected⟩
      · cases inside
  · rintro ⟨entries, mapping, e, inside, kind⟩
    have ordered := (OpenApi.endpoints_failsWith p.text entries e inside).1
    refine ⟨.schema e, ?_, (isExpected_schema_eq_false_iff ordered).2 kind⟩
    simp [entriesOrNone_of_entries? mapping, inside, mapError_error]

/-- Reading an OpenAPI document fails in a way that is not passed over if and only if its bytes are ruinous. -/
theorem readOpenApi_unexpected_iff {t : Tree} {p : Path} :
    (∃ e, readOpenApi t p = .error e ∧ e.isExpected = false) ↔
      ∃ bytes, t.read p = .ok bytes ∧ Ruinous t.room p.text bytes := by
  cases file : t.read p with
  | error e => simp [readOpenApi, readValue_of_unread file, EndpointsFailure.isExpected]
  | ok bytes =>
    simp only [Except.ok.injEq, exists_eq_left']
    cases decoded : Text.decodeUtf8? bytes with
    | none =>
      simp [readOpenApi, readValue_of_undecoded file decoded, EndpointsFailure.isExpected,
        not_ruinous_of_undecoded decoded]
    | some cs =>
      have value := readValue_of_decoded file decoded
      cases loaded : Yaml.load t.room (Text.unifyNewlines cs) with
      | error e =>
        rw [loaded] at value
        rw [ruinous_error_iff decoded loaded, ← isExpected_yaml_eq_false_iff, readOpenApi, value]
        simp [mapError_error]
      | ok v =>
        rw [loaded] at value
        rw [ruinous_ok_iff decoded loaded, readOpenApi_of_ok value]

-- The tag calls for a truth value, and there is none.
example : Ruinous {} "openapi.yaml" [33, 33, 98, 111, 111, 108] := by
  have decoded : Text.decodeUtf8? [33, 33, 98, 111, 111, 108] = some "!!bool".toList := by decide
  have fails : Yaml.load {} (Text.unifyNewlines "!!bool".toList) = .error .badWord := by cbv
  exact (ruinous_error_iff decoded fails).2 ⟨nofun, nofun⟩

end Document

namespace Documentation

variable {t : Tree}

def Spoiled (read : Path → Except Document.EndpointsFailure (List Endpoint)) (ps : List Path) : Prop :=
  ∃ p ∈ ps, ∃ e, read p = .error e ∧ e.isExpected = false

section

variable {read : Path → Except Document.EndpointsFailure (List Endpoint)}

theorem passOver_of_expected {p : Path} {x : Except Document.EndpointsFailure (List Endpoint)}
    (expected : FailsWith (fun e => e.isExpected = true) x) : (passOver p x).outcome = .ok (Document.yield x) := by
  cases x with
  | ok found => rfl
  | error e =>
    rw [passOver, if_pos (expected e rfl)]
    rfl

theorem passOver_of_unexpected {p : Path} {e : Document.EndpointsFailure} (unexpected : e.isExpected = false) :
    (passOver p (.error e)).outcome = .error (.documentation e) := by
  simp [passOver, unexpected]

theorem readAll_of_not_spoiled {ps : List Path} (fine : ¬ Spoiled read ps) :
    (readAll read ps).outcome = .ok (ps.flatMap fun p => Document.yield (read p)) := by
  induction ps with
  | nil => rfl
  | cons p ps ih =>
    have here : FailsWith (fun e => e.isExpected = true) (read p) := by
      intro e fails
      rw [← Bool.not_eq_false]
      exact fun unexpected => fine ⟨p, by simp, e, fails, unexpected⟩
    have there : ¬ Spoiled read ps := by
      rintro ⟨q, mem, spoils⟩
      exact fine ⟨q, by simp [mem], spoils⟩
    rw [readAll, Logged.outcome_bind_of_ok (passOver_of_expected here), Logged.outcome_bind_of_ok (ih there)]
    rfl

theorem readAll_of_spoiled {ps : List Path} (spoiled : Spoiled read ps) :
    ∃ e, (readAll read ps).outcome = .error e := by
  induction ps with
  | nil =>
    obtain ⟨p, mem, -⟩ := spoiled
    cases mem
  | cons p ps ih =>
    obtain ⟨q, mem, e, fails, unexpected⟩ := spoiled
    rw [readAll]
    cases here : (passOver p (read p)).outcome with
    | error d => exact ⟨d, Logged.outcome_bind_of_error here _⟩
    | ok found =>
      rw [Logged.outcome_bind_of_ok here]
      -- the first document is passed over, so it is a later one that spoils the list
      have later : Spoiled read ps := by
        rcases List.mem_cons.1 mem with rfl | mem
        · rw [fails, passOver_of_unexpected unexpected] at here
          cases here
        · exact ⟨q, mem, e, fails, unexpected⟩
      obtain ⟨d, there⟩ := ih later
      exact ⟨d, Logged.outcome_bind_of_error there _⟩

end

def blueprintYield (t : Tree) (files : List Path) : List Endpoint :=
  (openApiFiles files).flatMap (fun p => Document.yield (Document.readOpenApi t p)) ++
    (outlineFiles files).flatMap fun p => Document.yield (Document.readOutline t p)

def foundationYield (t : Tree) (foundation : Path) : List Endpoint :=
  if t.isFile (foundationOutline foundation) then
    Document.yield (Document.readOutline t (foundationOutline foundation))
  else []

/-- Why there is no list of documented endpoints: a path cannot even be asked for, or an OpenAPI document is not passed
over. -/
inductive Aborts (t : Tree) (blueprints foundation : Path) : Prop where
  | blueprints {e : FileError} (unasked : t.probeDir blueprints = .error e)
  | document {paths : List Path} {p : Path} {bytes : List UInt8} (found : files t blueprints = .ok paths)
      (mem : p ∈ openApiFiles paths) (read : t.read p = .ok bytes) (ruinous : Document.Ruinous t.room p.text bytes)
  | foundation {paths : List Path} {e : FileError} (found : files t blueprints = .ok paths)
      (nothing : blueprintYield t paths = []) (unasked : t.probeFile (foundationOutline foundation) = .error e)

theorem not_spoiled_readOutline (ps : List Path) : ¬ Spoiled (Document.readOutline t) ps := by
  rintro ⟨p, -, e, fails, unexpected⟩
  rw [Document.readOutline_expected e fails] at unexpected
  cases unexpected

section

variable {blueprints foundation : Path} {paths : List Path}

theorem probeDir_of_files_error {e : Failure} (unlisted : files t blueprints = .error e) :
    ∃ d, t.probeDir blueprints = .error d := by
  rw [files] at unlisted
  cases asked : t.probeDir blueprints with
  | error d => exact ⟨d, rfl⟩
  | ok there =>
    simp only [asked, Failure.ofProbe, mapError_ok, bind, Except.bind] at unlisted
    split at unlisted
    · split at unlisted <;> cases unlisted
    · cases unlisted

theorem files_of_unasked {e : FileError} (unasked : t.probeDir blueprints = .error e) :
    files t blueprints = .error (.unreachable e) := by
  rw [files, unasked]
  rfl

theorem blueprintEndpoints_of_error {e : Failure} (unlisted : files t blueprints = .error e) :
    (blueprintEndpoints t blueprints).outcome = .error e := by
  rw [blueprintEndpoints]
  exact Logged.outcome_bind_of_error unlisted _

theorem blueprintEndpoints_of_not_spoiled (found : files t blueprints = .ok paths)
    (fine : ¬ Spoiled (Document.readOpenApi t) (openApiFiles paths)) :
    (blueprintEndpoints t blueprints).outcome = .ok (blueprintYield t paths) := by
  have listed : (liftM (files t blueprints) : Logged Failure (List Path)).outcome = .ok paths := found
  rw [blueprintEndpoints, Logged.outcome_bind_of_ok listed, Logged.outcome_bind_of_ok (readAll_of_not_spoiled fine),
    Logged.outcome_bind_of_ok (readAll_of_not_spoiled (not_spoiled_readOutline _))]
  rfl

theorem blueprintEndpoints_of_spoiled (found : files t blueprints = .ok paths)
    (spoiled : Spoiled (Document.readOpenApi t) (openApiFiles paths)) :
    ∃ e, (blueprintEndpoints t blueprints).outcome = .error e := by
  have listed : (liftM (files t blueprints) : Logged Failure (List Path)).outcome = .ok paths := found
  obtain ⟨e, fails⟩ := readAll_of_spoiled spoiled
  exact ⟨e, by rw [blueprintEndpoints, Logged.outcome_bind_of_ok listed, Logged.outcome_bind_of_error fails]⟩

theorem isFile_of_probeFile {p : Path} {there : Bool} (asked : t.probeFile p = .ok there) : t.isFile p = there := by
  rw [Tree.probeFile, Tree.probe] at asked
  rw [Tree.isFile]
  cases found : t.find p with
  | ok e =>
    rw [found] at asked
    exact Except.ok.inj asked
  | error d =>
    rw [found] at asked
    cases d <;> cases asked <;> rfl

theorem fallback_of_probe {there : Bool} (asked : t.probeFile (foundationOutline foundation) = .ok there) :
    (fallback t foundation).outcome = .ok (foundationYield t foundation) := by
  have answered : (Logged.ofExcept (Failure.ofProbe (t.probeFile (foundationOutline foundation)))).outcome =
      .ok there := by
    rw [Logged.outcome_ofExcept, asked]
    rfl
  rw [fallback, Logged.outcome_bind_of_ok answered, foundationYield, isFile_of_probeFile asked]
  cases there with
  | false => rfl
  | true => exact passOver_of_expected Document.readOutline_expected

theorem fallback_of_unasked {e : FileError} (unasked : t.probeFile (foundationOutline foundation) = .error e) :
    (fallback t foundation).outcome = .error (.unreachable e) := by
  rw [fallback]
  exact Logged.outcome_bind_of_error (by rw [Logged.outcome_ofExcept, unasked]; rfl) _

end

section

variable {blueprints foundation : Path} {paths : List Path}

theorem spoiled_readOpenApi_iff :
    Spoiled (Document.readOpenApi t) paths ↔
      ∃ p ∈ paths, ∃ bytes, t.read p = .ok bytes ∧ Document.Ruinous t.room p.text bytes := by
  simp only [Spoiled, Document.readOpenApi_unexpected_iff]

theorem aborts_iff (found : files t blueprints = .ok paths) :
    Aborts t blueprints foundation ↔
      Spoiled (Document.readOpenApi t) (openApiFiles paths) ∨
        blueprintYield t paths = [] ∧ ∃ e, t.probeFile (foundationOutline foundation) = .error e := by
  rw [spoiled_readOpenApi_iff]
  constructor
  · intro aborts
    cases aborts with
    | blueprints unasked =>
      rw [files_of_unasked unasked] at found
      cases found
    | document found' mem read ruinous =>
      obtain rfl := Except.ok.inj (found.symm.trans found')
      exact .inl ⟨_, mem, _, read, ruinous⟩
    | foundation found' nothing unasked =>
      obtain rfl := Except.ok.inj (found.symm.trans found')
      exact .inr ⟨nothing, _, unasked⟩
  · rintro (⟨p, mem, bytes, read, ruinous⟩ | ⟨nothing, e, unasked⟩)
    · exact .document found mem read ruinous
    · exact .foundation found nothing unasked

theorem endpoints_of_error {e : Failure} (fails : (blueprintEndpoints t blueprints).outcome = .error e) :
    (endpoints t blueprints foundation).outcome = .error e := by
  rw [endpoints]
  exact Logged.outcome_bind_of_error fails _

theorem endpoints_of_ok {es : List Endpoint} (read : (blueprintEndpoints t blueprints).outcome = .ok es) :
    (endpoints t blueprints foundation).outcome = if es = [] then (fallback t foundation).outcome else .ok es := by
  rw [endpoints, Logged.outcome_bind_of_ok read]
  cases es with
  | nil =>
    rw [if_pos rfl]
    cases fell : (fallback t foundation).outcome with
    | error e => exact Logged.outcome_bind_of_error fell _
    | ok es => exact Logged.outcome_bind_of_ok fell _
  | cons => rfl

end

end Documentation

end Drift
