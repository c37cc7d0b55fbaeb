import Drift.Proofs.Report.Terminal
import Drift.Proofs.Text.Codes
import Drift.Report.Data
import Drift.Report.Text

namespace Drift

namespace Text

theorem isStandIn_of_lt {c : Char} (low : c.toNat < 0xE000) : isStandIn c = false := by
  rw [isStandIn, isSurrogate, Bool.and_eq_false_iff, decide_eq_false_iff_not]
  omega

theorem any_natChars (n : Nat) : (natChars n).any isStandIn = false := by
  rw [List.any_eq_false]
  intro c mem
  have digit : c.isDigit = true := Nat.isDigit_of_mem_toDigits (by decide) (by decide) mem
  rw [Char.isDigit, Bool.and_eq_true, decide_eq_true_eq, decide_eq_true_eq] at digit
  have low : c.toNat ≤ 57 := digit.2
  rw [isStandIn_of_lt (by omega)]
  exact Bool.false_ne_true

theorem any_intChars (n : Int) : (intChars n).any isStandIn = false := by
  have minus : isStandIn '-' = false := by decide
  rw [intChars]
  split
  · rw [List.any_cons, minus, any_natChars, Bool.or_false]
  · exact any_natChars _

@[simp] theorem isBroken_intText (n : Int) : isBroken (intText n) = false := by
  rw [isBroken, intText, String.toList_ofList, any_intChars]

theorem isBroken_intercalate {separator : String} (whole : isBroken separator = false) (ls : List String) :
    isBroken (separator.intercalate ls) = ls.any isBroken := by
  induction ls with
  | nil => rfl
  | cons l ls ih =>
    cases ls with
    | nil => simp
    | cons m ls =>
      rw [String.intercalate_cons_cons, isBroken_append, isBroken_append, ih, whole, Bool.or_false]
      rfl

end Text

namespace Json

open Text

mutual

def isBroken : Json → Bool
  | null | bool _ | int _ => false
  | str s => Text.isBroken s
  | arr items => someItem items
  | obj fields => someField fields

def someItem : List Json → Bool
  | [] => false
  | j :: js => isBroken j || someItem js

def someField : List (String × Json) → Bool
  | [] => false
  | (name, j) :: fs => Text.isBroken name || isBroken j || someField fs

end

theorem any_hexChars (width n : Nat) : (hexChars width n).any isStandIn = false := by
  have digit : ∀ d < 16, isStandIn (hexDigit d) = false := by decide
  induction width generalizing n with
  | zero => rfl
  | succ width ih =>
    rw [hexChars, List.any_append, ih, List.any_cons, digit _ (Nat.mod_lt n (by decide))]
    rfl

-- a surrogate is beyond the control characters, so it is written as it is
theorem any_codeChars (n : Nat) : (codeChars .unicode n).any isStandIn = isSurrogate n := by
  have short : ∀ e ∈ shortEscapes, isSurrogate e.1 = false ∧ ['\\', e.2].any isStandIn = false := by decide
  rw [codeChars]
  cases found : shortEscapes.lookup n with
  | some c =>
    obtain ⟨u, v, shape, -⟩ := List.lookup_eq_some_iff.1 found
    obtain ⟨code, written⟩ := short (n, c) (by simp [shape])
    rw [code]
    exact written
  | none =>
    by_cases plain : 32 ≤ n
    · rw [isPlain, decide_eq_true plain]
      exact any_heldCode n
    · have code : isSurrogate n = false := by
        rw [isSurrogate, Bool.and_eq_false_iff, decide_eq_false_iff_not]
        omega
      have slash : isStandIn '\\' = false := by decide
      have letter : isStandIn 'u' = false := by decide
      rw [isPlain, decide_eq_false plain, code]
      simp only [Bool.false_eq_true, if_false]
      rw [escapedCode, if_pos (by omega), unit, List.any_cons, List.any_cons, any_hexChars, slash, letter]
      rfl

theorem any_quoted (s : String) : (quoted .unicode s).any isStandIn = Text.isBroken s := by
  have quote : isStandIn '"' = false := by decide
  have each : (codes s.toList).any (fun n => (codeChars .unicode n).any isStandIn) = Text.isBroken s := by
    rw [Text.isBroken, ← any_codes]
    exact congrArg _ (funext any_codeChars)
  rw [quoted, quotedCodes, List.cons_append, List.any_cons, List.any_append, List.any_flatMap, each, List.any_cons, quote]
  simp

theorem any_newline (depth : Nat) : (newline depth).any isStandIn = false := by
  have line : isStandIn '\n' = false := by decide
  have blank : isStandIn ' ' = false := by decide
  rw [newline, List.any_cons, line, Bool.false_or, List.any_eq_false]
  intro c mem
  rw [(List.mem_replicate.1 mem).2, blank]
  exact Bool.false_ne_true

theorem any_bracketed {left right : Char} (first : isStandIn left = false) (last : isStandIn right = false) (depth : Nat)
    (inner : List Char) : (left :: inner ++ newline depth ++ [right]).any isStandIn = inner.any isStandIn := by
  simp only [List.cons_append, List.any_cons, List.any_append, any_newline, first, last, List.any_nil, Bool.or_false,
    Bool.false_or]

theorem any_comma (last : Bool) : (if last then [] else [',']).any isStandIn = false := by
  cases last <;> decide

mutual

theorem any_chars (depth : Nat) : ∀ j : Json, (chars .unicode depth j).any isStandIn = j.isBroken
  | null => by
    rw [chars, isBroken]
    decide
  | bool b => by
    rw [chars, isBroken]
    cases b <;> decide
  | int n => any_intChars n
  | str s => any_quoted s
  | arr [] => by
    rw [chars, isBroken, if_pos List.isEmpty_nil, someItem]
    decide
  | arr (j :: js) => by
    rw [chars, isBroken, if_neg (by simp), any_bracketed (by decide) (by decide), any_itemChars]
  | obj [] => by
    rw [chars, isBroken, if_pos List.isEmpty_nil, someField]
    decide
  | obj (f :: fs) => by
    rw [chars, isBroken, if_neg (by simp), any_bracketed (by decide) (by decide), any_fieldChars]

theorem any_itemChars (depth : Nat) : ∀ js : List Json, (itemChars .unicode depth js).any isStandIn = someItem js
  | [] => rfl
  | j :: js => by
    rw [itemChars, List.any_append, List.any_append, List.any_append, any_newline, any_chars depth j, any_comma,
      any_itemChars depth js, Bool.false_or, Bool.or_false, someItem]

theorem any_fieldChars (depth : Nat) :
    ∀ fs : List (String × Json), (fieldChars .unicode depth fs).any isStandIn = someField fs
  | [] => rfl
  | (name, j) :: fs => by
    have colon : (": ".toList).any isStandIn = false := by decide
    rw [fieldChars, List.any_append, List.any_append, List.any_append, List.any_append, List.any_append, any_newline,
      any_quoted, colon, any_chars depth j, any_comma, any_fieldChars depth fs, Bool.false_or, Bool.or_false,
      Bool.or_false, someField]

end

/-- The text of a value can be printed if all texts in the value can. -/
theorem isBroken_text (j : Json) : Text.isBroken (text .unicode j) = j.isBroken := by
  rw [Text.isBroken, text, String.toList_ofList, any_chars]

end Json

def Finding.isBroken (f : Finding) : Bool :=
  Text.isBroken f.subject || Text.isBroken f.message || Text.isBroken f.remedy

theorem Finding.isBroken_json (f : Finding) : f.json.isBroken = f.isBroken := by
  have names : Text.isBroken f.kind.name = false ∧ Text.isBroken f.severity.name = false := by
    cases f.kind <;> cases f.severity <;> decide
  have keys : ["type", "module", "message", "severity", "remediation"].any Text.isBroken = false := by decide
  simp only [List.any_cons, List.any_nil, Bool.or_eq_false_iff] at keys
  simp [Finding.json, Json.isBroken, Json.someField, names, keys, Finding.isBroken, Bool.or_assoc]

-- a hint is told by its message only
theorem Finding.any_lines {f : Finding}
    (hint : f.severity = .info → Text.isBroken f.remedy = true → Text.isBroken f.message = true) :
    f.lines.any Text.isBroken = f.isBroken := by
  have names : Text.isBroken f.kind.name = false := by
    cases f.kind <;> decide
  have marks : ["  [", "] ", ": ", "    -> ", ""].any Text.isBroken = false := by decide
  simp only [List.any_cons, List.any_nil, Bool.or_eq_false_iff] at marks
  have headline : Text.isBroken s!"  [{f.kind.name}] {f.subject}: {f.message}" =
      (Text.isBroken f.subject || Text.isBroken f.message) := by
    simp [toString, names, marks]
  rw [lines, List.any_cons, headline, isBroken]
  split
  · simp [toString, marks]
  · next untold =>
    rw [List.any_nil, Bool.or_false]
    cases broken : Text.isBroken f.remedy with
    | false => rw [Bool.or_false]
    | true =>
      have some : f.remedy ≠ "" := by
        intro none
        rw [none] at broken
        cases broken
      rw [hint (Decidable.not_not.1 fun info => untold ⟨some, info⟩) broken]
      simp

namespace Report

open Text

theorem any_countLines (s : Summary) : (countLines s).any isBroken = false := by
  have texts : ["Summary:", "  Total modules: ", "  Matching: ", "  Missing: ", "  Extra code dirs: ",
    "  Missing endpoints: ", "  Undocumented endpoints: ", "  Signature mismatches: ", "  Total warnings: ",
    " (errors: ", ", warnings: ", ")"].any isBroken = false := by decide
  simp only [List.any_cons, List.any_nil, Bool.or_eq_false_iff] at texts
  unfold countLines
  split <;> split <;> simp [toString, texts]

theorem any_titled {findings : List Finding}
    (hints : ∀ f ∈ findings, f.severity = .info → isBroken f.remedy = true → isBroken f.message = true)
    (severity : Severity) :
    (titled findings severity).any isBroken = (findings.filter (·.severity == severity)).any Finding.isBroken := by
  have title : isBroken (Terminal.bold severity.colour severity.title) = false := by
    cases severity <;> decide
  have gap : isBroken "" = false := rfl
  have lines : ∀ group : List Finding, (∀ f ∈ group, f ∈ findings) →
      (group.flatMap Finding.lines).any isBroken = group.any Finding.isBroken := by
    intro group inside
    induction group with
    | nil => rfl
    | cons f group ih =>
      obtain ⟨first, rest⟩ := List.forall_mem_cons.1 inside
      rw [List.flatMap_cons, List.any_append, Finding.any_lines (hints f first), ih rest, List.any_cons]
  have held : ∀ f ∈ findings.filter (·.severity == severity), f ∈ findings := fun f mem => (List.mem_filter.1 mem).1
  rw [titled]
  split
  · next none => rw [none]; rfl
  · rw [List.cons_append, List.any_cons, List.any_append, title, lines _ held, List.any_cons, gap]
    simp

variable {r : Report} (named : ∀ l ∈ r.summary.languages, isBroken l.1 = false)

include named

theorem isBroken_languagesLine : isBroken (languagesLine r.summary.languages) = false := by
  have opening : isBroken "Languages detected: " = false := by decide
  have between : isBroken " | " = false := by decide
  have marks : isBroken " (" = false ∧ isBroken " files)" = false := by decide
  unfold languagesLine
  extract_lets shown
  rw [isBroken_append, opening, Bool.false_or, isBroken_intercalate between, List.any_eq_false]
  intro text mem
  obtain ⟨l, inside, rfl⟩ := List.mem_map.1 mem
  simp [toString, named l (List.mem_mergeSort.1 inside), marks]

theorem any_solidLines : (solidLines r.summary).any isBroken = false := by
  have texts : [Terminal.bold .green "Foundation is solid.", "", "Summary: ", " modules checked, all in sync"].any isBroken =
    false := by decide
  simp only [List.any_cons, List.any_nil, Bool.or_eq_false_iff] at texts
  unfold solidLines
  split <;> simp [toString, texts, isBroken_languagesLine named]

theorem isBroken_summary : r.summary.json.isBroken = false := by
  have keys : ["total_modules", "matching_modules", "missing_modules", "extra_code_dirs", "total_warnings",
    "error_count", "warning_count", "languages", "missing_endpoints", "undocumented_endpoints",
    "signature_mismatches"].any isBroken = false := by decide
  simp only [List.any_cons, List.any_nil, Bool.or_eq_false_iff] at keys
  have languages : ∀ ls : List (String × Int), (∀ l ∈ ls, isBroken l.1 = false) →
      Json.someField (ls.map fun l => (l.1, .int l.2)) = false := by
    intro ls named
    induction ls with
    | nil => rfl
    | cons l ls ih =>
      obtain ⟨first, rest⟩ := List.forall_mem_cons.1 named
      rw [List.map_cons, Json.someField, first, ih rest]
      rfl
  simp [Summary.json, Json.isBroken, Json.someField, keys, languages _ named]

theorem isBroken_json : r.json.isBroken = r.findings.any Finding.isBroken := by
  have keys : ["success", "warnings", "summary"].any isBroken = false := by decide
  simp only [List.any_cons, List.any_nil, Bool.or_eq_false_iff] at keys
  have items : ∀ fs : List Finding, Json.someItem (fs.map Finding.json) = fs.any Finding.isBroken := by
    intro fs
    induction fs with
    | nil => rfl
    | cons f fs ih => rw [List.map_cons, Json.someItem, ih, f.isBroken_json, List.any_cons]
  simp [json, Json.isBroken, Json.someField, keys, items, isBroken_summary named]

theorem isBroken_text (verdict : r.isSolid = true → r.findings = [])
    (hints : ∀ f ∈ r.findings, f.severity = .info → isBroken f.remedy = true → isBroken f.message = true) :
    isBroken r.text = r.findings.any Finding.isBroken := by
  have texts : [Terminal.bold .yellow "Foundation drift detected:", ""].any isBroken = false := by decide
  have languages : (if r.summary.languages.isEmpty then [] else [languagesLine r.summary.languages, ""]).any isBroken =
      false := by
    split
    · rfl
    · rw [List.any_cons, isBroken_languagesLine named]
      rfl
  have groups : (Severity.all.flatMap (titled r.findings)).any isBroken = r.findings.any Finding.isBroken := by
    rw [List.any_flatMap, funext (any_titled hints), Bool.eq_iff_iff, List.any_eq_true]
    simp only [List.any_filter, List.any_eq_true, Bool.and_eq_true, beq_iff_eq]
    constructor
    · rintro ⟨s, -, f, mem, -, broken⟩
      exact ⟨f, mem, broken⟩
    · rintro ⟨f, mem, broken⟩
      exact ⟨f.severity, by cases f.severity <;> decide, f, mem, rfl, broken⟩
  rw [text, isBroken_intercalate (by decide)]
  split
  · next solid => rw [any_solidLines named, verdict solid, List.any_nil]
  · rw [driftLines, List.any_append, List.any_append, List.any_append, texts, languages, groups, any_countLines,
      Bool.or_false, Bool.false_or, Bool.false_or]

end Report

end Drift
