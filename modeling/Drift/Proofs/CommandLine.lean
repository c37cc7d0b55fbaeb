import Drift.CommandLine.Run
import Drift.Proofs.Inspection.Stages
import Drift.Proofs.Report.Sections
import Drift.Proofs.Report.Surrogates

namespace Drift.CommandLine

open Files

def presentation : List String := ["--json", "--strict", "--verbose"]

structure Request.Like (r r' : Request) : Prop where
  arguments : r'.arguments = r.arguments
  value : ∀ name ∉ presentation, r'.value? name = r.value? name

theorem Request.has_eq (r : Request) (name : String) : r.has name = (r.value? name).isSome := by
  rw [Bool.eq_iff_iff, has, value?, List.lookup_eq_findSome?, List.findSome?_isSome_iff, List.any_eq_true]
  constructor
  · rintro ⟨given, mem, same⟩
    refine ⟨given, List.mem_reverse.2 mem, ?_⟩
    rw [if_pos (beq_iff_eq.2 (eq_of_beq same).symm)]
    rfl
  · rintro ⟨given, mem, some⟩
    refine ⟨given, List.mem_reverse.1 mem, ?_⟩
    split at some
    · next same => exact beq_iff_eq.2 (eq_of_beq same).symm
    · cases some

/-- An option of presentation in front of the others asks for the same inspection. -/
theorem Request.like_give {name : String} (mem : name ∈ presentation) (r : Request) : r.Like (give [name] r) where
  arguments := rfl
  value := by
    intro other away
    have apart : (other == name) = false := beq_eq_false_iff_ne.2 fun same => away (same ▸ mem)
    simp [value?, give, List.lookup_append, apart]

theorem Request.ofWords_cons {name : String} (mem : name ∈ presentation) {words : List String} {r : Request}
    (read : ofWords (.command .inspect) words = .ok r) :
    ofWords (.command .inspect) (name :: words) = .ok (give [name] r) := by
  have one : name ≠ "--" ∧ item (Scope.command .inspect).switches name = .ok (.options [name]) := by
    rw [presentation, List.mem_cons, List.mem_pair] at mem
    rcases mem with rfl | rfl | rfl <;> exact ⟨by decide, rfl⟩
  rw [ofWords] at read ⊢
  rw [Request.read, if_neg one.1, one.2]
  simp only [read, Except.map]

def options (r : Request) (depth : Int) (root : Path) (settings : Settings) : Options where
  root
  foundation := settings.foundationPath root
  blueprints := some (settings.blueprintsPath root)
  ignoredDirs := settings.ignoredDirs
  useDescriptors := r.has "--use-descriptors"
  depth
  checkApi := r.has "--check-api"
  checkSignatures := r.has "--check-signatures"

def Obtains (t : Tree) (r : Request) (report : Report) : Prop :=
  r.has "--help" = false ∧ ∃ n p settings, depth r = .ok n ∧ root t r = .ok p ∧
    (Settings.load t p).outcome = .ok settings ∧
    (Inspection.run t Language.all (options r n p settings)).outcome = .ok report

section Requests

variable {t : Tree} {word : Detail → String} {r r' : Request} {report : Report} {words : List String}

theorem Request.Like.obtains (like : r.Like r') (obtained : Obtains t r report) : Obtains t r' report := by
  obtain ⟨asked, n, p, settings, depthRead, rootRead, loaded, inspected⟩ := obtained
  -- whatever an inspection reads of its request is no option of presentation
  have has : ∀ name ∉ presentation, r'.has name = r.has name := by
    intro name other
    rw [r'.has_eq, r.has_eq, like.value name other]
  have sameDepth : depth r' = depth r := by
    rw [depth, depth, like.value _ (by decide)]
  have sameRoot : root t r' = root t r := by
    rw [root, root, like.arguments]
  have sameOptions : options r' n p settings = options r n p settings := by
    rw [options, options, has _ (by decide), has _ (by decide), has _ (by decide)]
  rw [← has _ (by decide)] at asked
  rw [← sameDepth] at depthRead
  rw [← sameRoot] at rootRead
  rw [← sameOptions] at inspected
  exact ⟨asked, n, p, settings, depthRead, rootRead, loaded, inspected⟩

theorem success_of_run {detectors : List Language} {o : Options}
    (returned : (Inspection.run t detectors o).outcome = .ok report) :
    report.success = true ↔ ∀ f ∈ report.findings, f.severity ≠ .error := by
  obtain ⟨languages, m, api, functions, -, -, -, -, rfl⟩ := Inspection.ok_of_run returned
  change (List.countP _ (m.findings ++ api ++ functions) == 0) = true ↔ _
  rw [beq_iff_eq, List.countP_eq_zero]
  apply forall_congr'
  intro f
  apply imp_congr_right
  intro _
  rw [beq_iff_eq]

theorem Obtains.success (obtained : Obtains t r report) :
    report.success = true ↔ ∀ f ∈ report.findings, f.severity ≠ .error := by
  obtain ⟨-, n, p, settings, -, -, -, inspected⟩ := obtained
  exact success_of_run inspected

/-- The word is no option, and all behind it is left to the command. -/
theorem run_inspect (t : Tree) (word : Detail → String) (words : List String) :
    run t word ("inspect" :: words) = runCommand t word .inspect words := by
  have read : Request.ofWords .program ("inspect" :: words) = .ok { arguments := "inspect" :: words } := rfl
  rw [run, read]
  rfl

def fine (r : Request) (report : Report) : Bool := report.success && !(r.has "--strict" && !report.findings.isEmpty)

def told (r : Request) (report : Report) : String := if r.has "--json" then report.json.text .unicode else report.text

theorem Obtains.isBroken_told (obtained : Obtains t r report) (r' : Request) :
    Text.isBroken (Answer.line (told r' report)) = report.findings.any Finding.isBroken := by
  obtain ⟨-, n, p, settings, -, -, -, inspected⟩ := obtained
  have success := success_of_run inspected
  have discloses := Inspection.discloses_of_run inspected
  have named : ∀ l ∈ report.summary.languages, Text.isBroken l.1 = false := by
    obtain ⟨languages, m, api, functions, -, -, -, -, rfl⟩ := Inspection.ok_of_run inspected
    intro l mem
    obtain ⟨⟨language, count⟩, -, rfl⟩ := List.mem_map.1 mem
    have whole : Text.isBroken language.name = false := by cases language <;> decide
    exact whole
  have line : Text.isBroken "\n" = false := by decide
  rw [Answer.line, Text.isBroken_append, line, Bool.or_false, Terminal.isBroken_plain, told]
  split
  · rw [Json.isBroken_text, Report.isBroken_json named]
  · exact Report.isBroken_text named (Report.isSolid_iff success).1 discloses

def Answer.ofPrinted (isData fine : Bool) (errors : String) : Option String → Answer
  | some output => { code := if fine then 0 else 1, output, errors }
  | none => { code := 1, errors, crash := some (if isData then .unwritable else .unprintable) }

theorem answerOf_text {result : Result} {s : String} {isData fine : Bool}
    (outcome : result.outcome = .ok ⟨[s], isData, fine⟩) :
    answerOf word r result =
      .ofPrinted isData fine (Text.escaped (log word r result.events)) (Text.printed? s) := by
  have print : Answer.print [s] = (Text.printed? s).elim ("", true) fun output => (output, false) := by
    rw [Answer.print]
    cases Text.printed? s with
    | some output =>
      simp only [Answer.print, String.append_empty]
      rfl
    | none => rfl
  rw [answerOf, outcome]
  dsimp only
  rw [print]
  cases Text.printed? s with
  | some output => rfl
  | none => rfl

variable (word) in
theorem answer_of_obtains (read : Request.ofWords (.command .inspect) words = .ok r) (obtained : Obtains t r report) :
    ∃ errors, run t word ("inspect" :: words) =
      .ofPrinted (r.has "--json") (fine r report) errors (Text.printed? (Answer.line (told r report))) := by
  obtain ⟨asked, n, p, settings, depthRead, rootRead, loaded, inspected⟩ := obtained
  have outcome : (inspect t r n p).outcome = .ok ⟨[Answer.line (told r report)], r.has "--json", fine r report⟩ := by
    rw [inspect, Logged.outcome_bind_of_ok loaded]
    exact Logged.outcome_bind_of_ok inspected _
  refine ⟨Text.escaped (log word r (inspect t r n p).events), ?_⟩
  rw [run_inspect, runCommand, read]
  simp only [asked, Bool.false_eq_true, if_false, depthRead, rootRead]
  exact answerOf_text outcome

section Judged

variable (read : Request.ofWords (.command .inspect) words = .ok r) (obtained : Obtains t r report)
include read obtained

theorem answer_of_whole (whole : ∀ f ∈ report.findings, f.isBroken = false) :
    (run t word ("inspect" :: words)).code = (if fine r report then 0 else 1) ∧
      Text.printed? (Answer.line (told r report)) = some (run t word ("inspect" :: words)).output ∧
      (run t word ("inspect" :: words)).crash = none := by
  obtain ⟨errors, answer⟩ := answer_of_obtains word read obtained
  have printed : ∃ output, Text.printed? (Answer.line (told r report)) = some output := by
    rw [Text.printed?, obtained.isBroken_told r, if_neg (by simpa using whole)]
    exact ⟨_, rfl⟩
  obtain ⟨output, printed⟩ := printed
  rw [printed] at answer ⊢
  rw [answer]
  exact ⟨rfl, rfl, rfl⟩

theorem answer_of_broken (broken : ∃ f ∈ report.findings, f.isBroken = true) :
    (run t word ("inspect" :: words)).code = 1 ∧ (run t word ("inspect" :: words)).output = "" ∧
      (run t word ("inspect" :: words)).crash = some (if r.has "--json" then .unwritable else .unprintable) := by
  obtain ⟨errors, answer⟩ := answer_of_obtains word read obtained
  have unprinted : Text.printed? (Answer.line (told r report)) = none := by
    rw [Text.printed?, obtained.isBroken_told r, if_pos (List.any_eq_true.2 broken)]
  rw [unprinted] at answer
  rw [answer]
  exact ⟨rfl, rfl, rfl⟩

theorem code_eq : (run t word ("inspect" :: words)).code =
    if fine r report = true ∧ ∀ f ∈ report.findings, f.isBroken = false then 0 else 1 := by
  by_cases whole : ∀ f ∈ report.findings, f.isBroken = false
  · rw [(answer_of_whole read obtained whole).1]
    simp only [and_iff_left whole]
  · have broken : ∃ f ∈ report.findings, f.isBroken = true := by simpa using whole
    rw [(answer_of_broken read obtained broken).1, if_neg fun both => whole both.2]

end Judged

/-- What is answered to a request that obtains a report. The report is printed as it is unless something that is said
of a finding holds a surrogate: then nothing is printed, and the exit code is that of a failure. -/
structure Answer.Judges (a : Answer) (r : Request) (report : Report) : Prop where
  strict : r.has "--strict" = true → (a.code = 0 ↔ report.findings = [])
  lax : r.has "--strict" = false → (a.code = 0 ↔ ∀ f ∈ report.findings, f.severity ≠ .error ∧ f.isBroken = false)
  printed : (∀ f ∈ report.findings, f.isBroken = false) →
    Text.printed? (line (told r report)) = some a.output ∧ a.crash = none
  unprinted : (∃ f ∈ report.findings, f.isBroken = true) →
    a.output = "" ∧ a.crash = some (if r.has "--json" then .unwritable else .unprintable)

theorem judges_of_obtains (read : Request.ofWords (.command .inspect) words = .ok r) (obtained : Obtains t r report) :
    (run t word ("inspect" :: words)).Judges r report := by
  have zero : (run t word ("inspect" :: words)).code = 0 ↔
      fine r report = true ∧ ∀ f ∈ report.findings, f.isBroken = false := by
    rw [code_eq read obtained]
    split
    · next well => exact iff_of_true rfl well
    · next ill => exact iff_of_false Nat.one_ne_zero ill
  constructor
  case strict =>
    intro strict
    rw [zero, fine, strict, Bool.true_and, Bool.not_not, Bool.and_eq_true, List.isEmpty_iff,
      Report.success_and_empty_iff obtained.success]
    refine and_iff_left_of_imp fun none f mem => ?_
    rw [none] at mem
    cases mem
  case lax =>
    intro lax
    rw [zero, fine, lax, Bool.false_and, Bool.not_false, Bool.and_true, obtained.success]
    exact ⟨fun ⟨harmless, whole⟩ f mem => ⟨harmless f mem, whole f mem⟩,
      fun all => ⟨fun f mem => (all f mem).1, fun f mem => (all f mem).2⟩⟩
  case printed => exact fun whole => (answer_of_whole read obtained whole).2
  case unprinted => exact fun broken => (answer_of_broken read obtained broken).2

end Requests

/-- A project whose foundation documents an endpoint, `### GET /`, and which has no code. -/
def documentedOnly : Tree where
  entries := [(".driftscan", .dir [("foundation", .dir
    [("ARCHITECTURE.md", .file [35, 35, 35, 32, 71, 69, 84, 32, 47])])])]

def deepRequest : Request := { given := [("--depth", "3")] }

end Drift.CommandLine
