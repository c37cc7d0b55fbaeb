import Drift.Proofs.Check.Grades
import Drift.Proofs.Files.Revision
import Mathlib

namespace Drift

open Files

variable {t : Tree} {change : Revision}

theorem Failure.ofProbe_eq_ok_iff {α : Type} {x : Except FileError α} {a : α} : ofProbe x = .ok a ↔ x = .ok a := by
  cases x <;> simp [ofProbe, Except.mapError]

theorem answer_probeFile (p : Path) : answer (Failure.ofProbe (t.probeFile p)) = t.isFile p := by
  rw [Bool.eq_iff_iff, answer_eq_true_iff, Failure.ofProbe_eq_ok_iff, Tree.probeFile_eq_true_iff]

theorem answer_probeDir (p : Path) : answer (Failure.ofProbe (t.probeDir p)) = t.isDir p := by
  rw [Bool.eq_iff_iff, answer_eq_true_iff, Failure.ofProbe_eq_ok_iff, Tree.probeDir_eq_true_iff]

namespace Foundation

variable {foundation : Path} {declared : List String}

theorem moduleOf_eq_some_iff {file m : String} : moduleOf? file = some m ↔ file = m ++ ".md" ∧ m ≠ "" := by
  rw [← show String.ofList ('.' :: ['m', 'd']) = ".md" from rfl, ← splitExtension_eq_iff (by simp) (by simp), moduleOf?]
  split
  · next stem split => simp [split]
  · next other => exact iff_of_false (by simp) fun split => other m split

/-- Directly in the foundation lies a file, or a link to one, that is named for the module. -/
structure Declares (t : Tree) (foundation : Path) (m : String) : Prop where
  named : m ≠ ""
  listed : ∃ e, t.Lists foundation (m ++ ".md") e
  isFile : t.isFile (foundation.child (m ++ ".md")) = true

theorem modules_eq_ok_iff :
    modules t foundation = .ok declared ↔
      t.probeExists foundation = .ok false ∧ declared = [] ∨
      ∃ place entries, t.list foundation = .ok (place, entries) ∧
        (∀ n ∈ entries.map (·.1), ∃ b, t.probeFile (foundation.child n) = .ok b) ∧
        declared = sortNames (((entries.map (·.1)).filter fun n => t.isFile (foundation.child n)).filterMap moduleOf?) := by
  constructor
  · intro h
    obtain ⟨there, probed, h⟩ := ok_of_bind h
    cases there with
    | false =>
      cases h
      exact .inl ⟨Failure.ofProbe_eq_ok_iff.1 probed, rfl⟩
    | true =>
      obtain ⟨⟨place, entries⟩, listed, h⟩ := ok_of_bind h
      obtain ⟨files, kept, h⟩ := ok_of_bind h
      cases h
      obtain ⟨answered, rfl⟩ := filterM_ok_iff.1 kept
      simp only [Failure.ofProbe_eq_ok_iff] at answered
      simp only [answer_probeFile]
      exact .inr ⟨place, entries, ok_of_mapError listed, answered, rfl⟩
  · rintro (⟨probed, rfl⟩ | ⟨place, entries, listed, answered, rfl⟩)
    · rw [modules, probed]
      rfl
    · have probed : t.probeExists foundation = .ok true := by
        rw [Tree.probeExists, Tree.probe, Tree.list_eq_ok_iff.1 listed]
      simp only [← Failure.ofProbe_eq_ok_iff] at answered
      have kept := filterM_ok_iff.2 ⟨answered, rfl⟩
      simp only [answer_probeFile] at kept
      rw [modules, probed, listed]
      simp only [Failure.ofProbe, mapError_ok, bind, Except.bind, if_true, pure, Except.pure] at kept ⊢
      rw [kept]

/-- The modules that are listed are those that the foundation declares, each once, in the order of their names. -/
theorem modules_declared (distinct : t.top.Distinct) (read : modules t foundation = .ok declared) :
    declared.Pairwise (· < ·) ∧ ∀ m, m ∈ declared ↔ Declares t foundation m := by
  rcases modules_eq_ok_iff.1 read with ⟨probed, rfl⟩ | ⟨place, entries, listed, -, rfl⟩
  · refine ⟨.nil, fun m => iff_of_false List.not_mem_nil ?_⟩
    rintro ⟨-, ⟨e, place, entries, listed, -⟩, -⟩
    rw [Tree.probeExists, Tree.probe, Tree.list_eq_ok_iff.1 listed] at probed
    cases probed
  · have names := Tree.names_of_list distinct listed
    constructor
    · refine sortNames_increasing (.filterMap ?_ (names.filter _))
      intro file file' m first second
      rw [(moduleOf_eq_some_iff.1 first).1, (moduleOf_eq_some_iff.1 second).1]
    · intro m
      simp only [mem_sortNames, List.mem_filterMap, List.mem_filter, moduleOf_eq_some_iff,
        Tree.mem_names_iff_lists listed]
      constructor
      · rintro ⟨file, ⟨there, isFile⟩, rfl, named⟩
        exact ⟨named, there, isFile⟩
      · rintro ⟨named, there, isFile⟩
        exact ⟨_, ⟨there, isFile⟩, rfl, named⟩

theorem modules_revised_returns (change : Revision) (distinct : t.top.Distinct)
    (read : modules t foundation = .ok declared) :
    ∃ declared', modules (t.revised change) foundation = .ok declared' := by
  rcases modules_eq_ok_iff.1 read with ⟨probed, rfl⟩ | ⟨place, entries, listed, answered, rfl⟩
  · exact ⟨[], modules_eq_ok_iff.2 (.inl ⟨Tree.probeExists_revised_eq_false distinct foundation probed, rfl⟩)⟩
  · refine ⟨_, modules_eq_ok_iff.2 (.inr ⟨place, _, Tree.list_revised distinct listed, ?_, rfl⟩)⟩
    intro n mem
    obtain ⟨b, told⟩ := answered n (names_revisedAll.subset mem)
    obtain ⟨b', told, -⟩ := Tree.probeFile_revised distinct _ change told
    exact ⟨b', told⟩

/-- A revision adds no module, so the modules stay if none is lost. -/
theorem modules_revised (distinct : t.top.Distinct)
    (stays : ∀ m, Declares t foundation m → Declares (t.revised change) foundation m)
    (read : modules t foundation = .ok declared) : modules (t.revised change) foundation = .ok declared := by
  obtain ⟨declared', reread⟩ := modules_revised_returns change distinct read
  obtain ⟨increasing, members⟩ := modules_declared distinct read
  obtain ⟨increasing', members'⟩ := modules_declared (Tree.distinct_revised distinct) reread
  have same : declared' = declared := by
    refine increasing'.eq_of_mem_iff increasing fun m => ?_
    rw [members, members']
    refine ⟨?_, stays m⟩
    rintro ⟨named, there, isFile⟩
    obtain ⟨there, isFile⟩ := Tree.file_of_revised distinct ⟨there, isFile⟩
    exact ⟨named, there, isFile⟩
  rw [reread, same]

def OfDescriptors (change : Revision) : Prop :=
  ∀ place n bytes, (∀ m, n ≠ m ++ ".module.yaml") → change (place ++ [n]) bytes = some bytes

/-- A link in the foundation that is named for a module leads to a file if it did before. -/
def KeepsLinks (t : Tree) (foundation : Path) (change : Revision) : Prop :=
  ∀ m target, t.Lists foundation (m ++ ".md") (.link target) → t.isFile (foundation.child (m ++ ".md")) = true →
    (t.revised change).isFile (foundation.child (m ++ ".md")) = true

theorem keepsLinks_of_keepsFiles (distinct : t.top.Distinct) (foundation : Path) (keeps : change.KeepsFiles) :
    KeepsLinks t foundation change := by
  intro m target listed isFile
  obtain ⟨b, told, -, same⟩ :=
    Tree.probeFile_revised distinct _ change (Tree.probeFile_eq_true_iff.2 isFile)
  rw [← Tree.probeFile_eq_true_iff, told, same keeps]

theorem declares_revised (distinct : t.top.Distinct) (descriptors : OfDescriptors change)
    (links : KeepsLinks t foundation change) {m : String} (declares : Declares t foundation m) :
    Declares (t.revised change) foundation m := by
  obtain ⟨named, there, isFile⟩ := declares
  have proper : m ++ ".md" ≠ ".." := by
    intro same
    simpa using congrArg (·.toList.getLast?) same
  have other : ∀ d, m ++ ".md" ≠ d ++ ".module.yaml" := by
    intro d same
    simpa using congrArg (·.toList.getLast?) same
  have kept : ∀ place bytes, change (place ++ [m ++ ".md"]) bytes ≠ none := by
    intro place bytes
    simp [descriptors place _ bytes other]
  obtain ⟨still, remains⟩ :=
    Tree.file_revised distinct proper kept (fun target listed => links m target listed isFile) ⟨there, isFile⟩
  exact ⟨named, still, remains⟩

end Foundation

namespace Code

variable {root : Path} {ignored : List String} {present : List (String × Path)}

def folder (t : Tree) (root : Path) : Path := if t.isDir (root.child "src") then root.child "src" else root

/-- Directly in the folder lies a directory, or a link to one, that is neither ignored nor hidden. -/
structure HasModule (t : Tree) (root : Path) (ignored : List String) (m : String) : Prop where
  listed : ∃ e, t.Lists (folder t root) m e
  isDir : t.isDir ((folder t root).child m) = true
  kept : m ∉ ignored
  seen : m.toList.head? ≠ some '.'

theorem base_eq_ok_iff {b : Path} :
    base t root = .ok b ↔ (∃ inner, t.probeDir (root.child "src") = .ok inner) ∧ b = folder t root := by
  rw [base, folder]
  cases probed : t.probeDir (root.child "src") with
  | error e => simp [Failure.ofProbe, Except.mapError, bind, Except.bind]
  | ok inner =>
    have told : t.isDir (root.child "src") = inner := by
      rw [← answer_probeDir, probed]
      rfl
    simp [Failure.ofProbe, Except.mapError, bind, Except.bind, pure, Except.pure, told, eq_comm]

theorem modules_eq_ok_iff :
    modules t root ignored = .ok present ↔
      (∃ inner, t.probeDir (root.child "src") = .ok inner) ∧
      ∃ place entries, t.list (folder t root) = .ok (place, entries) ∧
        (∀ n ∈ entries.map (·.1), ∃ b, t.probeDir ((folder t root).child n) = .ok b) ∧
        present = (((sortNames (entries.map (·.1))).filter fun n => t.isDir ((folder t root).child n)).filter
          fun n => !isPruned ignored n).map fun n => (n, (folder t root).child n) := by
  constructor
  · intro h
    obtain ⟨b, based, h⟩ := ok_of_bind h
    obtain ⟨inner, rfl⟩ := base_eq_ok_iff.1 based
    obtain ⟨⟨place, entries⟩, listed, h⟩ := ok_of_bind h
    obtain ⟨dirs, kept, h⟩ := ok_of_bind h
    cases h
    obtain ⟨answered, rfl⟩ := filterM_ok_iff.1 kept
    simp only [Failure.ofProbe_eq_ok_iff, mem_sortNames] at answered
    simp only [answer_probeDir]
    exact ⟨inner, place, entries, ok_of_mapError listed, answered, rfl⟩
  · rintro ⟨inner, place, entries, listed, answered, rfl⟩
    simp only [← Failure.ofProbe_eq_ok_iff, ← @mem_sortNames (entries.map (·.1))] at answered
    have kept := filterM_ok_iff.2 ⟨answered, rfl⟩
    simp only [answer_probeDir] at kept
    rw [modules, base_eq_ok_iff.2 ⟨inner, rfl⟩]
    simp only [listed, mapError_ok, bind, Except.bind, pure, Except.pure] at kept ⊢
    rw [kept]

/-- The modules of the code, each once and with its path, in the order of their names. -/
theorem modules_present (distinct : t.top.Distinct) (read : modules t root ignored = .ok present) :
    ∃ names : List String, present = names.map (fun n => (n, (folder t root).child n)) ∧ names.Pairwise (· < ·) ∧
      ∀ m, m ∈ names ↔ HasModule t root ignored m := by
  obtain ⟨-, place, entries, listed, -, rfl⟩ := modules_eq_ok_iff.1 read
  have names := Tree.names_of_list distinct listed
  refine ⟨_, rfl, ((sortNames_increasing names).filter _).filter _, fun m => ?_⟩
  simp only [List.mem_filter, mem_sortNames, Bool.not_eq_true', isPruned_eq_false_iff, Tree.mem_names_iff_lists listed]
  constructor
  · rintro ⟨⟨there, isDir⟩, kept, seen⟩
    exact ⟨there, isDir, kept, seen⟩
  · rintro ⟨there, isDir, kept, seen⟩
    exact ⟨⟨there, isDir⟩, kept, seen⟩

theorem folder_revised (change : Revision) (distinct : t.top.Distinct) (root : Path) :
    folder (t.revised change) root = folder t root := by
  rw [folder, folder, Tree.isDir_revised distinct]

theorem modules_revised_returns (change : Revision) (distinct : t.top.Distinct)
    (read : modules t root ignored = .ok present) :
    ∃ present', modules (t.revised change) root ignored = .ok present' := by
  obtain ⟨inner, place, entries, listed, answered, rfl⟩ := modules_eq_ok_iff.1 read
  refine ⟨_, modules_eq_ok_iff.2 ⟨?_, place, revisedAll change place entries, ?_, ?_, rfl⟩⟩
  · rwa [Tree.probeDir_revised distinct]
  · rw [folder_revised change distinct]
    exact Tree.list_revised distinct listed
  · intro n mem
    rw [folder_revised change distinct, Tree.probeDir_revised distinct]
    exact answered n (names_revisedAll.subset mem)

/-- What files hold, and whether they are there, is nothing to the modules of the code: these are directories. -/
theorem modules_revised (distinct : t.top.Distinct) (read : modules t root ignored = .ok present) :
    modules (t.revised change) root ignored = .ok present := by
  obtain ⟨present', reread⟩ := modules_revised_returns change distinct read
  obtain ⟨names, rfl, increasing, members⟩ := modules_present distinct read
  obtain ⟨names', rfl, increasing', members'⟩ := modules_present (Tree.distinct_revised distinct) reread
  have same : names' = names := by
    refine increasing'.eq_of_mem_iff increasing fun m => ?_
    rw [members, members']
    have visible : m.toList.head? ≠ some '.' → m ≠ ".." := by
      rintro seen rfl
      exact seen rfl
    constructor
    · rintro ⟨there, isDir, kept, seen⟩
      rw [folder_revised change distinct] at there isDir
      obtain ⟨there, isDir⟩ := (Tree.dir_revised_iff distinct change (visible seen)).1 ⟨there, isDir⟩
      exact ⟨there, isDir, kept, seen⟩
    · rintro ⟨there, isDir, kept, seen⟩
      obtain ⟨there, isDir⟩ := (Tree.dir_revised_iff distinct change (visible seen)).2 ⟨there, isDir⟩
      rw [← folder_revised change distinct] at there isDir
      exact ⟨there, isDir, kept, seen⟩
  rw [reread, same, folder_revised change distinct]

end Code

namespace Check

/-- A comparison of the modules that are declared with those that are there. What one that is both lacks of its files
is in `lacks`. -/
structure Accounts (declared present : Finset String) (lacks : String → List Finding) (r : Reconciliation) : Prop where
  total : r.total = declared.card
  split : r.total = r.matching + r.missing
  matching : r.matching = (declared ∩ present).card
  missing : r.missing = (declared \ present).card
  extra : r.extra = (present \ declared).card
  findings : r.findings = (declared.sort.flatMap fun m => if m ∈ present then lacks m else [missingModule m]) ++
    (present \ declared).sort.map extraCode
  absent : r.findings.filter (·.kind == .missingModule) = (declared \ present).sort.map missingModule
  undeclared : r.findings.filter (·.kind == .extraCode) = (present \ declared).sort.map extraCode
  lacking : ∀ f ∈ r.findings, f.kind = .missingFile → ∃ m ∈ declared ∩ present, f ∈ lacks m ∧ f.subject = m

section Lists

variable {declared present : List String} {lacks : String → List Finding}

theorem sort_toFinset {names : List String} (increasing : names.Pairwise (· < ·)) : names.toFinset.sort = names :=
  (List.toFinset_sort (· ≤ ·) (increasing.imp ne_of_lt)).2 (increasing.imp le_of_lt)

theorem sort_sdiff {xs : List String} (increasing : xs.Pairwise (· < ·)) (ys : List String) :
    (xs.toFinset \ ys.toFinset).sort = xs.filter fun x => x ∉ ys := by
  have same : xs.toFinset \ ys.toFinset = (xs.filter fun x => x ∉ ys).toFinset := by
    ext x
    simp
  rw [same, sort_toFinset (increasing.filter _)]

theorem card_sdiff {xs : List String} (increasing : xs.Pairwise (· < ·)) (ys : List String) :
    (xs.toFinset \ ys.toFinset).card = (xs.filter fun x => x ∉ ys).length := by
  rw [← sort_sdiff increasing, Finset.length_sort]

def declaredFindings (present : List String) (lacks : String → List Finding) (m : String) : List Finding :=
  if m ∈ present then lacks m else [missingModule m]

def compared (declared present : List String) (lacks : String → List Finding) : Reconciliation where
  total := declared.length
  matching := (declared.filter fun m => m ∈ present).length
  missing := (declared.filter fun m => m ∉ present).length
  extra := (present.filter fun m => m ∉ declared).length
  findings := declared.flatMap (declaredFindings present lacks) ++ (present.filter fun m => m ∉ declared).map extraCode

theorem kind_of_extraCode {names : List String} : ∀ f ∈ names.map extraCode, f.kind = .extraCode := by
  intro f mem
  obtain ⟨m, -, rfl⟩ := List.mem_map.1 mem
  rfl

section Lacking

variable (lacking : ∀ m ∈ declared, m ∈ present → ∀ f ∈ lacks m, f.kind = .missingFile ∧ f.subject = m)
include lacking

theorem kind_of_declaredFindings : ∀ f ∈ declared.flatMap (declaredFindings present lacks),
    f.kind = .missingModule ∨ f.kind = .missingFile ∧ ∃ m ∈ declared, m ∈ present ∧ f ∈ lacks m ∧ f.subject = m := by
  intro f mem
  obtain ⟨m, inside, here⟩ := List.mem_flatMap.1 mem
  rw [declaredFindings] at here
  split at here
  · next there =>
    obtain ⟨kind, subject⟩ := lacking m inside there f here
    exact .inr ⟨kind, m, inside, there, here, subject⟩
  · obtain rfl := List.mem_singleton.1 here
    exact .inl rfl

theorem filter_declaredFindings :
    (declared.flatMap (declaredFindings present lacks)).filter (·.kind == .missingModule) =
      (declared.filter fun m => m ∉ present).map missingModule := by
  induction declared with
  | nil => rfl
  | cons m declared ih =>
    rw [List.flatMap_cons, List.filter_append, ih fun d mem => lacking d (by simp [mem]), declaredFindings]
    by_cases here : m ∈ present
    · have none : (lacks m).filter (·.kind == .missingModule) = [] := by
        rw [List.filter_eq_nil_iff]
        intro f mem
        simp [(lacking m (by simp) here f mem).1]
      simp [here, none]
    · simp [here, missingModule]

theorem compared_absent :
    (compared declared present lacks).findings.filter (·.kind == .missingModule) =
      (declared.filter fun m => m ∉ present).map missingModule := by
  have none : ((present.filter fun m => m ∉ declared).map extraCode).filter (·.kind == .missingModule) = [] := by
    rw [List.filter_eq_nil_iff]
    intro f mem
    simp [kind_of_extraCode f mem]
  rw [compared, List.filter_append, filter_declaredFindings lacking, none, List.append_nil]

theorem compared_undeclared :
    (compared declared present lacks).findings.filter (·.kind == .extraCode) =
      (present.filter fun m => m ∉ declared).map extraCode := by
  have none : (declared.flatMap (declaredFindings present lacks)).filter (·.kind == .extraCode) = [] := by
    rw [List.filter_eq_nil_iff]
    intro f mem
    rcases kind_of_declaredFindings lacking f mem with kind | ⟨kind, -⟩ <;> simp [kind]
  have all : ((present.filter fun m => m ∉ declared).map extraCode).filter (·.kind == .extraCode) =
      (present.filter fun m => m ∉ declared).map extraCode := by
    rw [List.filter_eq_self]
    intro f mem
    simp [kind_of_extraCode f mem]
  rw [compared, List.filter_append, none, all, List.nil_append]

theorem compared_lacking : ∀ f ∈ (compared declared present lacks).findings, f.kind = .missingFile →
    ∃ m ∈ declared, m ∈ present ∧ f ∈ lacks m ∧ f.subject = m := by
  intro f mem kind
  rcases List.mem_append.1 mem with mem | mem
  · rcases kind_of_declaredFindings lacking f mem with other | ⟨-, named⟩
    · rw [kind] at other
      cases other
    · exact named
  · rw [kind_of_extraCode f mem] at kind
    cases kind

theorem accounts_compared (increasing : declared.Pairwise (· < ·)) (alsoIncreasing : present.Pairwise (· < ·)) :
    Accounts declared.toFinset present.toFinset lacks (compared declared present lacks) := by
  have total : declared.toFinset.card = declared.length := List.toFinset_card_of_nodup (increasing.imp ne_of_lt)
  have missing := card_sdiff increasing present
  have parts := Finset.card_inter_add_card_sdiff declared.toFinset present.toFinset
  have counted : declared.length =
      (declared.filter fun m => m ∈ present).length + (declared.filter fun m => m ∉ present).length := by
    simpa using declared.length_eq_length_filter_add fun m => decide (m ∈ present)
  constructor
  case total => exact total.symm
  case split => exact counted
  case matching =>
    simp only [compared]
    omega
  case missing => exact missing.symm
  case extra => exact (card_sdiff alsoIncreasing declared).symm
  case findings =>
    rw [sort_toFinset increasing, sort_sdiff alsoIncreasing]
    simp only [List.mem_toFinset]
    rfl
  case absent => rw [compared_absent lacking, sort_sdiff increasing]
  case undeclared => rw [compared_undeclared lacking, sort_sdiff alsoIncreasing]
  case lacking =>
    intro f mem kind
    obtain ⟨m, inside, there, lacked, subject⟩ := compared_lacking lacking f mem kind
    exact ⟨m, by simp [inside, there], lacked, subject⟩

end Lacking

end Lists

variable {root foundation : Path} {ignored : List String} {useDescriptors : Bool} {r : Reconciliation}

def describedLacks (t : Tree) (root foundation : Path) (useDescriptors : Bool) (m : String) : List Finding :=
  if useDescriptors then (describedFiles t foundation m ((Code.folder t root).child m)).toOption.getD [] else []

theorem lookup_graph_iff {α : Type} (names : List String) (f : String → α) (m : String) :
    (names.map fun n => (n, f n)).lookup m = if m ∈ names then some (f m) else none := by
  split
  · next mem => exact List.lookup_graph f mem
  · next absent =>
    rw [List.lookup_eq_none_iff]
    rintro ⟨n, a⟩ mem
    obtain ⟨n, inside, same⟩ := List.mem_map.1 mem
    cases same
    simpa using fun same : m = n => absent (same ▸ inside)

theorem declaredModule_present {names : List String} {m : String} {fs : List Finding}
    (found : declaredModule t foundation useDescriptors (names.map fun n => (n, (Code.folder t root).child n)) m = .ok fs) :
    fs = declaredFindings names (describedLacks t root foundation useDescriptors) m ∧
      (m ∈ names → useDescriptors = true → describedFiles t foundation m ((Code.folder t root).child m) = .ok fs) := by
  rw [declaredModule, lookup_graph_iff] at found
  rw [declaredFindings, describedLacks]
  by_cases here : m ∈ names
  · simp only [here, if_true] at found ⊢
    cases useDescriptors with
    | false =>
      cases found
      exact ⟨rfl, by simp⟩
    | true =>
      simp only [if_true] at found ⊢
      rw [found]
      exact ⟨rfl, fun _ _ => rfl⟩
  · simp only [here, if_false] at found ⊢
    cases found
    exact ⟨rfl, by simp⟩

/-- The comparison, from the modules of the foundation and those of the code. -/
theorem modules_compared {declared names : List String} (listed : Foundation.modules t foundation = .ok declared)
    (found : Code.modules t root ignored = .ok (names.map fun n => (n, (Code.folder t root).child n)))
    (returned : (modules t root foundation ignored useDescriptors).outcome = .ok r) :
    r = compared declared names (describedLacks t root foundation useDescriptors) ∧
      (useDescriptors = true → ∀ m ∈ declared, m ∈ names →
        describedFiles t foundation m ((Code.folder t root).child m) =
          .ok (describedLacks t root foundation useDescriptors m)) := by
  obtain ⟨declared', relisted, h⟩ := Logged.ok_of_bind returned
  obtain rfl : declared = declared' := Except.ok.inj (listed.symm.trans relisted)
  obtain ⟨present, refound, h⟩ := Logged.ok_of_bind h
  obtain rfl := Except.ok.inj (found.symm.trans refound)
  obtain ⟨findings, read, h⟩ := Logged.ok_of_bind h
  obtain ⟨-, -, h⟩ := Logged.ok_of_bind h
  cases h
  have each : ∀ m ∈ declared,
      declaredModule t foundation useDescriptors (names.map fun n => (n, (Code.folder t root).child n)) m =
        .ok (declaredFindings names (describedLacks t root foundation useDescriptors) m) := by
    intro m mem
    obtain ⟨fs, here⟩ := ok_of_mapM read mem
    rw [here, (declaredModule_present here).1]
  obtain rfl := Except.ok.inj ((mapM_of_ok each).symm.trans read)
  constructor
  · have there : (fun m => ((names.map fun n => (n, (Code.folder t root).child n)).lookup m).isSome) =
        fun m => decide (m ∈ names) := by
      funext m
      rw [lookup_graph_iff]
      split <;> simp [*]
    have absent : (fun m => ((names.map fun n => (n, (Code.folder t root).child n)).lookup m).isNone) =
        fun m => decide (m ∉ names) := by
      funext m
      rw [lookup_graph_iff]
      split <;> simp [*]
    have undeclared : (names.map fun n => (n, (Code.folder t root).child n)).map (·.1) = names := by
      simp [Function.comp_def]
    rw [there, absent, undeclared, ← List.flatMap_def]
    simp [compared]
  · intro used m mem inside
    obtain ⟨fs, here⟩ := ok_of_mapM read mem
    obtain ⟨same, described⟩ := declaredModule_present here
    rw [described inside used, same, declaredFindings, if_pos inside]

/-- Without descriptors, a comparison depends on the modules of the foundation and of the code only. -/
theorem modules_congr {t' : Tree} (listed : Foundation.modules t' foundation = Foundation.modules t foundation)
    (found : Code.modules t' root ignored = Code.modules t root ignored) :
    modules t' root foundation ignored false = modules t root foundation ignored false := by
  have each : declaredModule t' foundation false = declaredModule t foundation false := by
    funext present m
    rw [declaredModule, declaredModule]
    simp only [Bool.false_eq_true, if_false]
  rw [modules, modules, listed, found, each]

/-- Where it comes to an end, a comparison of the modules accounts for each of them once: for one that is declared and
not there, one that is there and not declared, and one that is both. Without descriptors, it looks for no files of
modules, and neither what a descriptor holds nor whether it is there matters, as long as each link that is named for a
module still leads to a file. -/
theorem modules_accounted (t : Tree) (root foundation : Path) (ignored : List String) (useDescriptors : Bool)
    (r : Reconciliation) (distinct : t.top.Distinct)
    (returned : (modules t root foundation ignored useDescriptors).outcome = .ok r) :
    ∃ (declared present : Finset String) (lacks : String → List Finding),
      (∀ m, m ∈ declared ↔ Foundation.Declares t foundation m) ∧ (∀ m, m ∈ present ↔ Code.HasModule t root ignored m) ∧
      Accounts declared present lacks r ∧
      (useDescriptors = true → ∀ m ∈ declared ∩ present,
        describedFiles t foundation m ((Code.folder t root).child m) = .ok (lacks m)) ∧
      (useDescriptors = false → (∀ f ∈ r.findings, f.kind ≠ .missingFile) ∧
        ∀ change, Foundation.OfDescriptors change → change.KeepsFiles ∨ Foundation.KeepsLinks t foundation change →
          modules (t.revised change) root foundation ignored false = modules t root foundation ignored false) := by
  obtain ⟨declared, listed, rest⟩ := Logged.ok_of_bind returned
  obtain ⟨present, found, -⟩ := Logged.ok_of_bind rest
  have listed : Foundation.modules t foundation = .ok declared := listed
  have found : Code.modules t root ignored = .ok present := found
  obtain ⟨increasing, declares⟩ := Foundation.modules_declared distinct listed
  obtain ⟨names, rfl, alsoIncreasing, has⟩ := Code.modules_present distinct found
  obtain ⟨same, described⟩ := modules_compared listed found returned
  have lacking : ∀ m ∈ declared, m ∈ names → ∀ f ∈ describedLacks t root foundation useDescriptors m,
      f.kind = .missingFile ∧ f.subject = m := by
    intro m mem inside f lacked
    cases useDescriptors with
    | false => cases lacked
    | true =>
      obtain ⟨kind, subject, -⟩ := describedFiles_lacks (described rfl m mem inside) f lacked
      exact ⟨kind, subject⟩
  have accounts := accounts_compared lacking increasing alsoIncreasing
  rw [← same] at accounts
  refine ⟨declared.toFinset, names.toFinset, _, by simpa using declares, by simpa using has, accounts, ?_, ?_⟩
  · intro used m both
    rw [Finset.mem_inter, List.mem_toFinset, List.mem_toFinset] at both
    exact described used m both.1 both.2
  · rintro rfl
    constructor
    · intro f mem kind
      obtain ⟨m, -, lacked, -⟩ := accounts.lacking f mem kind
      cases lacked
    · intro change descriptors kept
      have links := kept.elim (Foundation.keepsLinks_of_keepsFiles distinct foundation) id
      have relisted := Foundation.modules_revised distinct
        (fun m => Foundation.declares_revised distinct descriptors links) listed
      exact modules_congr (relisted.trans listed.symm) ((Code.modules_revised distinct found).trans found.symm)

/-- In the foundation `f`, the text of the module `a` is a link to a descriptor. -/
def linkedTree : Tree where
  entries :=
    [("f", .dir [("x.module.yaml", .file []), ("a.md", .link "x.module.yaml"), ("b.md", .file [])]),
      ("r", .dir [("c", .dir []), ("b", .dir [])])]

theorem linkedTree_distinct : linkedTree.top.Distinct := by
  have texts : (Entry.dir [("x.module.yaml", .file []), ("a.md", .link "x.module.yaml"), ("b.md", .file [])]).Distinct := by
    refine .dir (by decide) fun n e mem => ?_
    simp only [List.mem_cons, Prod.mk.injEq, List.not_mem_nil, or_false] at mem
    rcases mem with ⟨-, rfl⟩ | ⟨-, rfl⟩ | ⟨-, rfl⟩
    · exact .file []
    · exact .link "x.module.yaml"
    · exact .file []
  have empty : (Entry.dir []).Distinct := .dir .nil fun n e mem => by cases mem
  have code : (Entry.dir [("c", .dir []), ("b", .dir [])]).Distinct := by
    refine .dir (by decide) fun n e mem => ?_
    simp only [List.mem_cons, Prod.mk.injEq, List.not_mem_nil, or_false] at mem
    rcases mem with ⟨-, rfl⟩ | ⟨-, rfl⟩ <;> exact empty
  refine .dir (by decide) fun n e mem => ?_
  simp only [linkedTree, List.mem_cons, Prod.mk.injEq, List.not_mem_nil, or_false] at mem
  rcases mem with ⟨-, rfl⟩ | ⟨-, rfl⟩
  · exact texts
  · exact code

def linkedModules : Reconciliation := ⟨2, 1, 1, 1, [missingModule "a", extraCode "c"]⟩

theorem linkedTree_modules :
    (modules linkedTree ⟨0, ["r"]⟩ ⟨0, ["f"]⟩ [] false).outcome = .ok linkedModules := by cbv

theorem modules_accounted_linked :
    linkedTree.top.Distinct ∧ (modules linkedTree ⟨0, ["r"]⟩ ⟨0, ["f"]⟩ [] false).outcome = .ok linkedModules ∧
      (∃ (declared present : Finset String) (lacks : String → List Finding),
        (∀ m, m ∈ declared ↔ Foundation.Declares linkedTree ⟨0, ["f"]⟩ m) ∧
        (∀ m, m ∈ present ↔ Code.HasModule linkedTree ⟨0, ["r"]⟩ [] m) ∧
        Accounts declared present lacks linkedModules) ∧
      ∀ change, Foundation.OfDescriptors change →
        change.KeepsFiles ∨ Foundation.KeepsLinks linkedTree ⟨0, ["f"]⟩ change →
        modules (linkedTree.revised change) ⟨0, ["r"]⟩ ⟨0, ["f"]⟩ [] false =
          modules linkedTree ⟨0, ["r"]⟩ ⟨0, ["f"]⟩ [] false := by
  obtain ⟨declared, present, lacks, declares, has, accounts, -, plain⟩ := modules_accounted linkedTree ⟨0, ["r"]⟩
    ⟨0, ["f"]⟩ [] false linkedModules linkedTree_distinct linkedTree_modules
  exact ⟨linkedTree_distinct, linkedTree_modules, ⟨declared, present, lacks, declares, has, accounts⟩, (plain rfl).2⟩

def withoutDescriptor : Revision := fun place bytes => if place = ["f", "x.module.yaml"] then none else some bytes

theorem withoutDescriptor_ofDescriptors : Foundation.OfDescriptors withoutDescriptor := by
  intro place n bytes other
  refine if_neg fun here => other "x" ?_
  have last := congrArg List.getLast? here
  rw [List.getLast?_concat] at last
  exact Option.some.inj last

/-- A descriptor matters to a comparison without descriptors where a link that is named for a module leads to it. -/
theorem linked_descriptor_matters :
    linkedTree.top.Distinct ∧ Foundation.OfDescriptors withoutDescriptor ∧
      (modules linkedTree ⟨0, ["r"]⟩ ⟨0, ["f"]⟩ [] false).outcome =
        .ok ⟨2, 1, 1, 1, [missingModule "a", extraCode "c"]⟩ ∧
      (modules (linkedTree.revised withoutDescriptor) ⟨0, ["r"]⟩ ⟨0, ["f"]⟩ [] false).outcome =
        .ok ⟨1, 1, 0, 1, [extraCode "c"]⟩ := by
  refine ⟨linkedTree_distinct, withoutDescriptor_ofDescriptors, linkedTree_modules, ?_⟩
  cbv

end Check

end Drift
