import Drift.Proofs.Report.Terminal
import Drift.Report.Text
import Mathlib.Data.List.Basic
import Mathlib.Data.List.Pairwise

namespace Drift

section Sorting

variable {α κ : Type} {key : α → κ} {rank : κ → Nat}

theorem byRank_trans (x y z : α) (first : decide (rank (key x) ≤ rank (key y)) = true)
    (second : decide (rank (key y) ≤ rank (key z)) = true) : decide (rank (key x) ≤ rank (key z)) = true :=
  decide_eq_true (Nat.le_trans (of_decide_eq_true first) (of_decide_eq_true second))

theorem byRank_total (x y : α) :
    (decide (rank (key x) ≤ rank (key y)) || decide (rank (key y) ≤ rank (key x))) = true := by
  rw [Bool.or_eq_true, decide_eq_true_iff, decide_eq_true_iff]
  exact Nat.le_total _ _

variable [DecidableEq κ]

/-- What is sorted by a key is known by what it holds under each key, in order. -/
theorem eq_of_sorted {xs ys : List α} (apart : ∀ j k, rank j = rank k → j = k)
    (sorted : xs.Pairwise fun x y => rank (key x) ≤ rank (key y))
    (sorted' : ys.Pairwise fun x y => rank (key x) ≤ rank (key y))
    (same : ∀ k, xs.filter (key · == k) = ys.filter (key · == k)) : xs = ys := by
  induction xs generalizing ys with
  | nil =>
    cases ys with
    | nil => rfl
    | cons y ys =>
      have held := same (key y)
      simp at held
  | cons x xs ih =>
    cases ys with
    | nil =>
      have held := same (key x)
      simp at held
    | cons y ys =>
      -- each head occurs in the other list, so neither has a greater key
      obtain ⟨least, tail⟩ := List.pairwise_cons.1 sorted
      obtain ⟨least', tail'⟩ := List.pairwise_cons.1 sorted'
      have yAmong : y ∈ x :: xs := by
        have mem : y ∈ (y :: ys).filter (key · == key y) := by simp
        rw [← same] at mem
        exact (List.mem_filter.1 mem).1
      have xAmong : x ∈ y :: ys := by
        have mem : x ∈ (x :: xs).filter (key · == key x) := by simp
        rw [same] at mem
        exact (List.mem_filter.1 mem).1
      have below : rank (key x) ≤ rank (key y) := by
        rcases List.mem_cons.1 yAmong with rfl | mem
        · exact Nat.le_refl _
        · exact least y mem
      have above : rank (key y) ≤ rank (key x) := by
        rcases List.mem_cons.1 xAmong with rfl | mem
        · exact Nat.le_refl _
        · exact least' x mem
      have keys : key x = key y := apart _ _ (Nat.le_antisymm below above)
      have heads := same (key y)
      rw [List.filter_cons_of_pos (by simp [keys]), List.filter_cons_of_pos (by simp)] at heads
      obtain ⟨rfl, -⟩ := List.cons_eq_cons.1 heads
      refine congrArg (x :: ·) (ih tail tail' fun k => ?_)
      have held := same k
      rw [List.filter_cons, List.filter_cons] at held
      split at held
      · exact (List.cons_eq_cons.1 held).2
      · exact held

theorem filter_mergeSort (xs : List α) (k : κ) :
    (xs.mergeSort fun x y => decide (rank (key x) ≤ rank (key y))).filter (key · == k) = xs.filter (key · == k) := by
  have held : (xs.filter (key · == k)).Pairwise fun x y => decide (rank (key x) ≤ rank (key y)) = true := by
    refine List.pairwise_of_forall_mem_list fun x left y right => ?_
    have keys : key x = key y :=
      (eq_of_beq (List.mem_filter.1 left).2).trans (eq_of_beq (List.mem_filter.1 right).2).symm
    simp [keys]
  have inside := (List.sublist_mergeSort byRank_trans byRank_total held List.filter_sublist).filter (key · == k)
  rw [List.filter_filter] at inside
  simp only [Bool.and_self] at inside
  exact (inside.eq_of_length ((List.mergeSort_perm _ _).filter _).length_eq.symm).symm

section Groups

variable {ks : List κ} (increasing : ks.Pairwise fun j k => rank j < rank k)

include increasing

/-- Groups of one key each, in the order of the keys, are sorted by the key. -/
theorem groups_sorted (xs : List α) :
    (ks.flatMap fun k => xs.filter (key · == k)).Pairwise fun x y => rank (key x) ≤ rank (key y) := by
  have under : ∀ {k x}, x ∈ xs.filter (key · == k) → key x = k := fun mem => eq_of_beq (List.mem_filter.1 mem).2
  rw [List.pairwise_flatMap]
  constructor
  · intro k _
    refine List.pairwise_of_forall_mem_list fun x left y right => ?_
    exact Nat.le_of_eq (congrArg rank ((under left).trans (under right).symm))
  · refine increasing.imp fun less x left y right => ?_
    rw [under left, under right]
    exact Nat.le_of_lt less

theorem filter_groups (xs : List α) (j : κ) :
    (ks.flatMap fun k => xs.filter (key · == k)).filter (key · == j) = if j ∈ ks then xs.filter (key · == j) else [] := by
  induction ks with
  | nil => rfl
  | cons k ks ih =>
    obtain ⟨least, increasing⟩ := List.pairwise_cons.1 increasing
    rw [List.flatMap_cons, List.filter_append, ih increasing, List.filter_filter]
    by_cases here : j = k
    · subst here
      have new : j ∉ ks := fun mem => Nat.lt_irrefl _ (least j mem)
      simp [new]
    · have none : xs.filter (fun x => key x == j && key x == k) = [] := by
        rw [List.filter_eq_nil_iff]
        intro x _ both
        rw [Bool.and_eq_true, beq_iff_eq, beq_iff_eq] at both
        exact here (both.1.symm.trans both.2)
      simp [here, none]

/-- The groups of all keys, in the order of the keys, are the stable sorting by the key. -/
theorem groups_eq_mergeSort (apart : ∀ j k, rank j = rank k → j = k) {xs : List α} (all : ∀ x ∈ xs, key x ∈ ks) :
    (ks.flatMap fun k => xs.filter (key · == k)) = xs.mergeSort fun x y => decide (rank (key x) ≤ rank (key y)) := by
  have sorted : (xs.mergeSort fun x y => decide (rank (key x) ≤ rank (key y))).Pairwise
      fun x y => rank (key x) ≤ rank (key y) :=
    (List.pairwise_mergeSort byRank_trans byRank_total xs).imp of_decide_eq_true
  refine eq_of_sorted apart (groups_sorted increasing xs) sorted fun k => ?_
  rw [filter_groups increasing, filter_mergeSort]
  by_cases known : k ∈ ks
  · rw [if_pos known]
  · rw [if_neg known, eq_comm, List.filter_eq_nil_iff]
    intro x mem held
    exact known (eq_of_beq held ▸ all x mem)

end Groups

end Sorting

def Severity.rank : Severity → Nat
  | error => 0
  | warning => 1
  | info => 2

theorem Severity.rank_injective (s t : Severity) (same : s.rank = t.rank) : s = t := by
  cases s <;> cases t <;> first | rfl | cases same

theorem Severity.title_eq_errors {s : Severity} : s.title = "Errors:" ↔ s = .error := by
  cases s <;> decide

def Finding.headline (f : Finding) : String := s!"  [{f.kind.name}] {f.subject}: {f.message}"

def Finding.remedyLine (f : Finding) : String := s!"    -> {f.remedy}"

structure Section where
  severity : Severity
  findings : List Finding

namespace Section

def lines (s : Section) : List String := s.severity.title :: s.findings.flatMap Finding.lines ++ [""]

def ofFindings? (findings : List Finding) (severity : Severity) : Option Section :=
  match findings.filter (·.severity == severity) with
  | [] => none
  | group => some ⟨severity, group⟩

variable {findings : List Finding} {severity : Severity} {s : Section}

theorem ofFindings?_eq_some : ofFindings? findings severity = some s ↔
    s = ⟨severity, findings.filter (·.severity == severity)⟩ ∧ s.findings ≠ [] := by
  unfold ofFindings?
  split
  · next none =>
    rw [none]
    constructor
    · intro h
      cases h
    · rintro ⟨rfl, filled⟩
      exact absurd rfl filled
  · next filled =>
    rw [Option.some_inj]
    constructor
    · rintro rfl
      exact ⟨rfl, filled⟩
    · rintro ⟨rfl, -⟩
      rfl

theorem findings_ofFindings? (severities : List Severity) :
    (severities.filterMap (ofFindings? findings)).flatMap (·.findings) =
      severities.flatMap fun s => findings.filter (·.severity == s) := by
  induction severities with
  | nil => rfl
  | cons s severities ih =>
    rw [List.filterMap_cons, List.flatMap_cons, ← ih]
    unfold ofFindings?
    cases findings.filter (·.severity == s) <;> rfl

end Section

namespace Report

open Terminal

def opening (r : Report) : List String :=
  ["Foundation drift detected:", ""] ++
    if r.summary.languages.isEmpty then [] else [languagesLine r.summary.languages, ""]

def sections (r : Report) : List Section := Severity.all.filterMap (Section.ofFindings? r.findings)

variable {r : Report} {s : Section}

theorem mem_sections : s ∈ r.sections ↔
    s = ⟨s.severity, r.findings.filter (·.severity == s.severity)⟩ ∧ s.findings ≠ [] := by
  rw [sections, List.mem_filterMap]
  constructor
  · rintro ⟨severity, -, held⟩
    obtain ⟨rfl, filled⟩ := Section.ofFindings?_eq_some.1 held
    exact ⟨rfl, filled⟩
  · rintro held
    have known : s.severity ∈ Severity.all := by cases s.severity <;> decide
    exact ⟨s.severity, known, Section.ofFindings?_eq_some.2 held⟩

/-- Every finding stands in its section, and the sections are in the order of their severities. -/
theorem sections_findings (r : Report) : r.sections.flatMap (·.findings) =
    r.findings.mergeSort fun f g => decide (f.severity.rank ≤ g.severity.rank) := by
  rw [sections, Section.findings_ofFindings?]
  refine groups_eq_mergeSort (by decide) Severity.rank_injective fun f _ => ?_
  cases f.severity <;> decide

theorem sections_increasing (r : Report) :
    r.sections.Pairwise fun s t => s.severity.rank < t.severity.rank := by
  have increasing : Severity.all.Pairwise fun s t => s.rank < t.rank := by decide
  refine increasing.filterMap _ fun j k less s held t held' => ?_
  obtain ⟨rfl, -⟩ := Section.ofFindings?_eq_some.1 held
  obtain ⟨rfl, -⟩ := Section.ofFindings?_eq_some.1 held'
  exact less

theorem shown_titled (findings : List Finding) (severity : Severity) :
    shown (titled findings severity) =
      shown ((Section.ofFindings? findings severity).toList.flatMap Section.lines) := by
  unfold titled Section.ofFindings?
  cases findings.filter (·.severity == severity) with
  | nil => rfl
  | cons f group => simp [Section.lines, shown_bold]

theorem shown_flatMap_titled (findings : List Finding) (severities : List Severity) :
    shown (severities.flatMap (titled findings)) =
      shown ((severities.filterMap (Section.ofFindings? findings)).flatMap Section.lines) := by
  induction severities with
  | nil => rfl
  | cons s severities ih =>
    rw [List.filterMap_eq_flatMap_toList] at ih ⊢
    rw [List.flatMap_cons, List.flatMap_cons, List.flatMap_append, shown_append, shown_append, shown_titled, ih]

theorem shown_driftLines (r : Report) :
    shown (driftLines r) = shown (r.opening ++ r.sections.flatMap Section.lines ++ countLines r.summary) := by
  simp only [driftLines, opening, shown_append, shown_flatMap_titled, shown_bold]
  rfl

/-- A line that is text only, and what follows it, character by character. -/
theorem toList_shown_cons {l : String} (free : ∀ x ∈ l.toList, x ≠ '\x1b') (ls : List String) :
    (shown (l :: ls)).toList = l.toList ++ '\n' :: (shown ls).toList := by
  rw [shown_cons, plain_eq_self free]
  simp

theorem toList_shown_solidLines (s : Summary) :
    ∃ rest, (shown (solidLines s)).toList = "Foundation is solid.\n".toList ++ rest := by
  rw [solidLines, List.append_assoc, List.singleton_append, shown_bold, toList_shown_cons (by simp)]
  exact ⟨_, by simp; rfl⟩

theorem toList_shown_opening (r : Report) (ls : List String) :
    ∃ rest, (shown (r.opening ++ ls)).toList = "Foundation drift detected:\n".toList ++ rest := by
  rw [opening, List.cons_append, List.cons_append, toList_shown_cons (by simp)]
  exact ⟨_, by simp; rfl⟩

theorem exists_error_iff (r : Report) :
    (∃ s ∈ r.sections, s.severity = .error) ↔ ∃ f ∈ r.findings, f.severity = .error := by
  constructor
  · rintro ⟨s, mem, error⟩
    obtain ⟨held, filled⟩ := mem_sections.1 mem
    obtain ⟨f, among⟩ := List.exists_mem_of_ne_nil _ filled
    rw [held] at among
    obtain ⟨found, same⟩ := List.mem_filter.1 among
    exact ⟨f, found, (eq_of_beq same).trans error⟩
  · rintro ⟨f, mem, error⟩
    have among : f ∈ r.findings.filter (·.severity == .error) := List.mem_filter.2 ⟨mem, beq_iff_eq.2 error⟩
    exact ⟨⟨.error, _⟩, mem_sections.2 ⟨rfl, List.ne_nil_of_mem among⟩, rfl⟩

theorem errors_first (r : Report) :
    (shown ["Errors:"]).toList <+: (shown (r.sections.flatMap Section.lines ++ countLines r.summary)).toList ↔
      ∃ f ∈ r.findings, f.severity = .error := by
  rw [← exists_error_iff, toList_shown_cons (by simp)]
  have increasing := r.sections_increasing
  cases sections : r.sections with
  | nil =>
    rw [List.flatMap_nil, List.nil_append, countLines, List.append_assoc, List.append_assoc, List.cons_append,
      toList_shown_cons (by simp)]
    simp
  | cons s others =>
    rw [sections] at increasing
    obtain ⟨least, -⟩ := List.pairwise_cons.1 increasing
    rw [List.flatMap_cons, Section.lines, List.append_assoc, List.cons_append, List.cons_append,
      toList_shown_cons (by cases s.severity <;> simp [Severity.title]), List.exists_mem_cons_iff]
    by_cases error : s.severity = .error
    · rw [error]
      refine iff_of_true ?_ (.inl rfl)
      exact (List.prefix_append_right_inj _).2 (by simp [shown])
    · -- behind the first section every rank is positive
      have later : ¬∃ t ∈ others, t.severity = .error := by
        rintro ⟨t, mem, error⟩
        have less := least t mem
        rw [error] at less
        exact Nat.not_lt_zero _ less
      refine iff_of_false ?_ (not_or.2 ⟨error, later⟩)
      cases severity : s.severity with
      | error => exact absurd severity error
      | warning => simp [Severity.title]
      | info => simp [Severity.title]

/-- How a report is told, line by line: on its own where nothing was found, else in sections that hold every finding
once, the gravest severity first and each section in the order of the findings. -/
structure Tells (r : Report) (printed : String) : Prop where
  solid : r.findings = [] → printed = shown (solidLines r.summary)
  drift : r.findings ≠ [] →
    printed = shown (r.opening ++ r.sections.flatMap Section.lines ++ countLines r.summary)
  isSolid : "Foundation is solid.\n".toList <+: printed.toList ↔ r.findings = []
  errorSection : (∃ s ∈ r.sections, s.severity.title = "Errors:") ↔ ∃ f ∈ r.findings, f.severity = .error
  hasErrors : (shown (r.opening ++ ["Errors:"])).toList <+: printed.toList ↔ ∃ f ∈ r.findings, f.severity = .error
  sorted : r.sections.flatMap (·.findings) =
    r.findings.mergeSort fun f g => decide (f.severity.rank ≤ g.severity.rank)
  increasing : r.sections.Pairwise fun s t => s.severity.rank < t.severity.rank
  sections : ∀ s ∈ r.sections, s.findings ≠ [] ∧ ∀ f ∈ s.findings, f.severity = s.severity
  remedies : ∀ f ∈ r.findings,
    f.lines = [f.headline, f.remedyLine] ∧ f.remedy ≠ "" ∧ f.severity ≠ .info ∨
      f.lines = [f.headline] ∧ (f.remedy = "" ∨ f.severity = .info)

section Verdict

variable (verdict : r.success = true ↔ ∀ f ∈ r.findings, f.severity ≠ .error)

include verdict

theorem success_and_empty_iff : r.success = true ∧ r.findings = [] ↔ r.findings = [] := by
  rw [verdict]
  refine and_iff_right_of_imp fun none f mem => ?_
  rw [none] at mem
  cases mem

theorem isSolid_iff : r.isSolid = true ↔ r.findings = [] := by
  rw [isSolid, Bool.and_eq_true, List.isEmpty_iff, success_and_empty_iff verdict]

theorem plain_text_solid (none : r.findings = []) : plain r.text ++ "\n" = shown (solidLines r.summary) := by
  rw [text, if_pos ((isSolid_iff verdict).2 none)]
  exact plain_lines (by simp [solidLines])

theorem plain_text_drift (some : r.findings ≠ []) :
    plain r.text ++ "\n" = shown (r.opening ++ r.sections.flatMap Section.lines ++ countLines r.summary) := by
  rw [text, if_neg (mt (isSolid_iff verdict).1 some), ← shown_driftLines]
  exact plain_lines (by simp [driftLines])

/-- A report whose verdict is that of its findings is told as they are. -/
theorem tells_text : r.Tells (plain r.text ++ "\n") := by
  constructor
  case solid => exact plain_text_solid verdict
  case drift => exact plain_text_drift verdict
  case isSolid =>
    by_cases none : r.findings = []
    · obtain ⟨rest, shape⟩ := toList_shown_solidLines r.summary
      rw [plain_text_solid verdict none, shape]
      exact iff_of_true (List.prefix_append _ _) none
    · obtain ⟨rest, shape⟩ := toList_shown_opening r (r.sections.flatMap Section.lines ++ countLines r.summary)
      rw [plain_text_drift verdict none, List.append_assoc, shape]
      exact iff_of_false (by simp) none
  case errorSection =>
    simp only [Severity.title_eq_errors]
    exact r.exists_error_iff
  case hasErrors =>
    by_cases none : r.findings = []
    · obtain ⟨rest, shape⟩ := toList_shown_solidLines r.summary
      obtain ⟨rest', shape'⟩ := toList_shown_opening r ["Errors:"]
      rw [plain_text_solid verdict none, shape, shape', none]
      exact iff_of_false (by simp) (by simp)
    · -- both texts have the opening in common
      rw [plain_text_drift verdict none, ← errors_first, List.append_assoc, shown_append, shown_append r.opening,
        String.toList_append, String.toList_append, List.prefix_append_right_inj]
  case sorted => exact r.sections_findings
  case increasing => exact r.sections_increasing
  case sections =>
    intro s mem
    obtain ⟨held, filled⟩ := mem_sections.1 mem
    refine ⟨filled, fun f among => ?_⟩
    rw [held] at among
    exact eq_of_beq (List.mem_filter.1 among).2
  case remedies =>
    intro f _
    unfold Finding.lines
    split
    · next wanted => exact .inl ⟨rfl, wanted⟩
    · next unwanted => exact .inr ⟨rfl, (not_and_or.1 unwanted).imp not_not.1 not_not.1⟩

end Verdict

end Report

end Drift
