import Drift.Code
import Mathlib.Data.List.Nodup
import Mathlib.Data.String.Basic

namespace Drift.Files

inductive Entry.Distinct : Entry → Prop where
  | file (bytes : List UInt8) : Distinct (.file bytes)
  | link (target : String) : Distinct (.link target)
  | dir {entries : List (String × Entry)} (names : (entries.map (·.1)).Nodup)
      (inside : ∀ n e, (n, e) ∈ entries → Distinct e) : Distinct (.dir entries)

theorem lookup_iff_mem {entries : List (String × Entry)} (names : (entries.map (·.1)).Nodup) {n : String} {e : Entry} :
    entries.lookup n = some e ↔ (n, e) ∈ entries := by
  rw [List.lookup_eq_some_iff]
  constructor
  · rintro ⟨before, after, rfl, -⟩
    simp
  · intro mem
    obtain ⟨before, after, rfl⟩ := List.append_of_mem mem
    refine ⟨before, after, rfl, ?_⟩
    intro i earlier
    rw [List.map_append, List.nodup_append] at names
    have other := names.2.2 i.1 (List.mem_map_of_mem earlier) n (by simp)
    simpa using other.symm

def Path.within (p : Path) (names : List String) : Path := { p with parts := p.parts ++ names }

theorem Path.within_child (p : Path) (n : String) (names : List String) :
    (p.child n).within names = p.within (n :: names) := by
  simp [within, child]

theorem Path.within_injective (p : Path) : Function.Injective p.within :=
  fun _ _ same => List.append_cancel_left (congrArg Path.parts same)

/-- Under the names lies what is no directory, nor a link to one, and the walk gets there: there is a directory
under each of the names before the last, none of them is a link, and none is pruned. -/
structure Tree.HasFile (t : Tree) (pruned : String → Bool) (place : List String) (e : Entry) (names : List String) :
    Prop where
  below : names ≠ []
  file : ∃ found, e.below? names = some found ∧ t.leadsToDir (place ++ names) found = false
  way : ∀ d ∈ names.dropLast, pruned d = false

variable {t : Tree} {pruned : String → Bool} {place : List String} {entries : List (String × Entry)}

theorem hasFile_singleton {n : String} :
    t.HasFile pruned place (.dir entries) [n] ↔
      ∃ e, entries.lookup n = some e ∧ t.leadsToDir (place ++ [n]) e = false := by
  have step : ∀ found, (Entry.dir entries).below? [n] = some found ↔ entries.lookup n = some found := by
    intro found
    rw [Entry.below?]
    cases entries.lookup n with
    | none => simp
    | some e => simp [Entry.below?]
  constructor
  · rintro ⟨-, ⟨found, here, file⟩, -⟩
    exact ⟨found, (step found).1 here, file⟩
  · rintro ⟨e, here, file⟩
    exact ⟨by simp, ⟨e, (step e).2 here, file⟩, by simp⟩

theorem hasFile_cons {n : String} {names : List String} (more : names ≠ []) :
    t.HasFile pruned place (.dir entries) (n :: names) ↔
      pruned n = false ∧ ∃ e, entries.lookup n = some e ∧ t.HasFile pruned (place ++ [n]) e names := by
  have places : place ++ n :: names = place ++ [n] ++ names := by simp
  have way : (∀ d ∈ (n :: names).dropLast, pruned d = false) ↔
      pruned n = false ∧ ∀ d ∈ names.dropLast, pruned d = false := by
    rw [List.dropLast_cons_of_ne_nil more, List.forall_mem_cons]
  constructor
  · rintro ⟨-, ⟨found, here, file⟩, passed⟩
    rw [Entry.below?, Option.bind_eq_some_iff] at here
    obtain ⟨e, inside, later⟩ := here
    rw [places] at file
    exact ⟨(way.1 passed).1, e, inside, more, ⟨found, later, file⟩, (way.1 passed).2⟩
  · rintro ⟨passed, e, inside, -, ⟨found, later, file⟩, rest⟩
    refine ⟨by simp, ⟨found, ?_, places ▸ file⟩, way.2 ⟨passed, rest⟩⟩
    rw [Entry.below?, inside, Option.bind_some, later]

theorem isDir_of_hasFile {e : Entry} {names : List String} (has : t.HasFile pruned place e names) :
    ∃ entries, e = .dir entries := by
  obtain ⟨below, ⟨found, here, -⟩, -⟩ := has
  cases e with
  | dir entries => exact ⟨entries, rfl⟩
  | file bytes =>
    cases names with
    | nil => exact absurd rfl below
    | cons n names => cases here
  | link target =>
    cases names with
    | nil => exact absurd rfl below
    | cons n names => cases here

def visit (t : Tree) (pruned : String → Bool) (place : List String) (path : Path) (named : String × Entry) : Visit :=
  if t.leadsToDir (place ++ [named.1]) named.2 then
    ⟨named.1, true,
      if pruned named.1 then [] else filesBelow t pruned (place ++ [named.1]) (path.child named.1) named.2⟩
  else ⟨named.1, false, [path.child named.1]⟩

theorem visitAll_eq_map (path : Path) : visitAll t pruned place path entries = entries.map (visit t pruned place path) := by
  induction entries with
  | nil => rfl
  | cons named entries ih =>
    obtain ⟨n, e⟩ := named
    rw [visitAll, ih]
    rfl

theorem filesBelow_dir (path : Path) :
    filesBelow t pruned place path (.dir entries) = gather (entries.map (visit t pruned place path)) := by
  rw [filesBelow, visitAll_eq_map]

theorem mem_visit {path p : Path} {n : String} {e : Entry} :
    p ∈ (visit t pruned place path (n, e)).files ↔
      t.leadsToDir (place ++ [n]) e = false ∧ p = path.child n ∨
      t.leadsToDir (place ++ [n]) e = true ∧ pruned n = false ∧
        p ∈ filesBelow t pruned (place ++ [n]) (path.child n) e := by
  rw [visit]
  cases t.leadsToDir (place ++ [n]) e with
  | false => simp
  | true => cases pruned n <;> simp

theorem mem_gather {visits : List Visit} {p : Path} : p ∈ gather visits ↔ ∃ v ∈ visits, p ∈ v.files := by
  simp only [gather, List.mem_append, List.mem_flatMap, List.mem_filter, List.mem_mergeSort]
  constructor
  · rintro (⟨v, ⟨mem, -⟩, here⟩ | ⟨v, ⟨mem, -⟩, here⟩)
    · exact ⟨v, mem, here⟩
    · exact ⟨v, mem, here⟩
  · rintro ⟨v, mem, here⟩
    cases isDir : v.isDir with
    | false => exact .inl ⟨v, ⟨mem, by simp [isDir]⟩, here⟩
    | true => exact .inr ⟨v, ⟨mem, isDir⟩, here⟩

theorem mem_filesBelow {e : Entry} (distinct : e.Distinct) {path p : Path} :
    p ∈ filesBelow t pruned place path e ↔ ∃ names, t.HasFile pruned place e names ∧ p = path.within names := by
  induction distinct generalizing place path with
  | file bytes =>
    refine iff_of_false List.not_mem_nil ?_
    rintro ⟨names, has, -⟩
    obtain ⟨entries, other⟩ := isDir_of_hasFile has
    cases other
  | link target =>
    refine iff_of_false List.not_mem_nil ?_
    rintro ⟨names, has, -⟩
    obtain ⟨entries, other⟩ := isDir_of_hasFile has
    cases other
  | @dir entries names inside ih =>
    -- a file of the directory has one name below it, a file of its directories more
    rw [filesBelow_dir, mem_gather]
    constructor
    · rintro ⟨v, listed, here⟩
      obtain ⟨⟨n, e⟩, mem, rfl⟩ := List.mem_map.1 listed
      have found := (lookup_iff_mem names).2 mem
      rcases mem_visit.1 here with ⟨file, rfl⟩ | ⟨-, kept, deeper⟩
      · exact ⟨[n], hasFile_singleton.2 ⟨e, found, file⟩, rfl⟩
      · obtain ⟨later, has, rfl⟩ := (ih n e mem).1 deeper
        exact ⟨n :: later, (hasFile_cons has.below).2 ⟨kept, e, found, has⟩, path.within_child n later⟩
    · rintro ⟨under, has, rfl⟩
      cases under with
      | nil => exact absurd rfl has.below
      | cons n later =>
        by_cases last : later = []
        · subst last
          obtain ⟨e, found, file⟩ := hasFile_singleton.1 has
          exact ⟨_, List.mem_map_of_mem ((lookup_iff_mem names).1 found), mem_visit.2 (.inl ⟨file, rfl⟩)⟩
        · obtain ⟨kept, e, found, deeper⟩ := (hasFile_cons last).1 has
          have mem := (lookup_iff_mem names).1 found
          obtain ⟨sub, rfl⟩ := isDir_of_hasFile deeper
          refine ⟨_, List.mem_map_of_mem mem, mem_visit.2 (.inr ⟨rfl, kept, ?_⟩)⟩
          exact (ih n _ mem).2 ⟨later, deeper, (path.within_child n later).symm⟩

/-- The order of a walk on names from its root: by the directory, then by the name in it. -/
def Earlier (ms ns : List String) : Prop :=
  ms.dropLast < ns.dropLast ∨ ms.dropLast = ns.dropLast ∧ ms.getLast?.getD "" < ns.getLast?.getD ""

theorem earlier_irrefl (ns : List String) : ¬ Earlier ns ns := by
  rintro (directory | ⟨-, name⟩)
  · exact List.lt_irrefl _ directory
  · exact String.lt_irrefl _ name

theorem earlier_files {m n : String} (before : m < n) : Earlier [m] [n] := .inr ⟨rfl, before⟩

theorem earlier_file_dir (m n : String) {ns : List String} (below : ns ≠ []) : Earlier [m] (n :: ns) := by
  rw [Earlier, List.dropLast_cons_of_ne_nil below]
  exact .inl (List.nil_lt_cons n _)

theorem earlier_dirs {m n : String} (before : m < n) {ms ns : List String} (first : ms ≠ []) (second : ns ≠ []) :
    Earlier (m :: ms) (n :: ns) := by
  rw [Earlier, List.dropLast_cons_of_ne_nil first, List.dropLast_cons_of_ne_nil second]
  exact .inl (List.cons_lt_cons_iff.2 (.inl before))

theorem earlier_cons (n : String) {ms ns : List String} (first : ms ≠ []) (second : ns ≠ []) (before : Earlier ms ns) :
    Earlier (n :: ms) (n :: ns) := by
  have last : ∀ names : List String, names ≠ [] → (n :: names).getLast?.getD "" = names.getLast?.getD "" := by
    intro names filled
    rw [List.getLast?_cons_of_ne_nil filled]
  rw [Earlier, List.dropLast_cons_of_ne_nil first, List.dropLast_cons_of_ne_nil second, last ms first, last ns second]
  rcases before with directory | ⟨directory, name⟩
  · exact .inl (List.cons_lt_cons_iff.2 (.inr ⟨rfl, directory⟩))
  · exact .inr ⟨congrArg _ directory, name⟩

def Path.Before (root p q : Path) : Prop := ∃ ms ns, p = root.within ms ∧ q = root.within ns ∧ Earlier ms ns

structure Visit.Tidy (path : Path) (v : Visit) : Prop where
  file : v.isDir = false → ∀ p ∈ v.files, p = path.within [v.name]
  dir : v.isDir = true → ∀ p ∈ v.files, ∃ names, names ≠ [] ∧ p = path.within (v.name :: names)
  order : v.files.Pairwise path.Before

theorem visit_name (path : Path) (named : String × Entry) : (visit t pruned place path named).name = named.1 := by
  rw [visit]
  split <;> rfl

/-- Things with distinct names stand in the order of their names when they are sorted by them. -/
theorem increasing_mergeSort {α : Type} (name : α → String) {xs : List α} (distinct : (xs.map name).Nodup) :
    (xs.mergeSort fun a b => !(name b < name a)).Pairwise fun a b => name a < name b := by
  have weak : (xs.mergeSort fun a b => !(name b < name a)).Pairwise fun a b => (!decide (name b < name a)) = true := by
    apply List.pairwise_mergeSort
    · intro a b c first second
      simp only [Bool.not_eq_true', decide_eq_false_iff_not, not_lt] at *
      exact first.trans second
    · intro a b
      simp only [Bool.or_eq_true, Bool.not_eq_true', decide_eq_false_iff_not, not_lt]
      exact le_total (name a) (name b)
  have different : (xs.mergeSort fun a b => !(name b < name a)).Pairwise fun a b => name a ≠ name b :=
    List.pairwise_map.1 (((List.mergeSort_perm xs _).map name).nodup_iff.2 distinct)
  refine (weak.and different).imp ?_
  rintro a b ⟨before, other⟩
  simp only [Bool.not_eq_true', decide_eq_false_iff_not, not_lt] at before
  exact lt_of_le_of_ne before other

theorem sorted_visits {visits : List Visit} (names : (visits.map (·.name)).Nodup) :
    (visits.mergeSort visitOrder).Pairwise fun v w => v.name < w.name :=
  increasing_mergeSort Visit.name names

section Tidy

variable {path : Path} {v w : Visit}

theorem Visit.Tidy.files_before (first : v.Tidy path) (second : w.Tidy path) (isFile : v.isDir = false)
    (alsoFile : w.isDir = false) (before : v.name < w.name) : ∀ p ∈ v.files, ∀ q ∈ w.files, path.Before p q := by
  intro p here q there
  exact ⟨[v.name], [w.name], first.file isFile p here, second.file alsoFile q there, earlier_files before⟩

theorem Visit.Tidy.file_before_dir (first : v.Tidy path) (second : w.Tidy path) (isFile : v.isDir = false)
    (isDir : w.isDir = true) : ∀ p ∈ v.files, ∀ q ∈ w.files, path.Before p q := by
  intro p here q there
  obtain ⟨ns, more, rfl⟩ := second.dir isDir q there
  exact ⟨[v.name], w.name :: ns, first.file isFile p here, rfl, earlier_file_dir v.name w.name more⟩

theorem Visit.Tidy.dirs_before (first : v.Tidy path) (second : w.Tidy path) (isDir : v.isDir = true)
    (alsoDir : w.isDir = true) (before : v.name < w.name) : ∀ p ∈ v.files, ∀ q ∈ w.files, path.Before p q := by
  intro p here q there
  obtain ⟨ms, filled, rfl⟩ := first.dir isDir p here
  obtain ⟨ns, more, rfl⟩ := second.dir alsoDir q there
  exact ⟨v.name :: ms, w.name :: ns, rfl, rfl, earlier_dirs before filled more⟩

theorem gather_ordered {visits : List Visit} (tidy : ∀ v ∈ visits, v.Tidy path)
    (names : (visits.map (·.name)).Nodup) : (gather visits).Pairwise path.Before := by
  have sorted := sorted_visits names
  have kept : ∀ v ∈ visits.mergeSort visitOrder, v.Tidy path := fun v mem => tidy v (List.mem_mergeSort.1 mem)
  rw [gather]
  generalize visits.mergeSort visitOrder = visits at sorted kept
  have own : ∀ v ∈ visits.filter (!·.isDir), v.Tidy path ∧ v.isDir = false := by
    intro v mem
    obtain ⟨visited, isFile⟩ := List.mem_filter.1 mem
    exact ⟨kept v visited, by simpa using isFile⟩
  have inner : ∀ v ∈ visits.filter (·.isDir), v.Tidy path ∧ v.isDir = true := by
    intro v mem
    obtain ⟨visited, isDir⟩ := List.mem_filter.1 mem
    exact ⟨kept v visited, isDir⟩
  rw [List.pairwise_append, List.pairwise_flatMap, List.pairwise_flatMap]
  refine ⟨⟨fun v mem => (own v mem).1.order, ?_⟩, ⟨fun v mem => (inner v mem).1.order, ?_⟩, ?_⟩
  · apply (sorted.sublist List.filter_sublist).imp_of_mem
    intro v w first second before
    exact (own v first).1.files_before (own w second).1 (own v first).2 (own w second).2 before
  · apply (sorted.sublist List.filter_sublist).imp_of_mem
    intro v w first second before
    exact (inner v first).1.dirs_before (inner w second).1 (inner v first).2 (inner w second).2 before
  · intro p here q there
    obtain ⟨v, first, here⟩ := List.mem_flatMap.1 here
    obtain ⟨w, second, there⟩ := List.mem_flatMap.1 there
    exact (own v first).1.file_before_dir (inner w second).1 (own v first).2 (inner w second).2 p here q there

end Tidy

section Child

variable {path : Path} {n : String} {e : Entry} (distinct : e.Distinct)
include distinct

theorem filesBelow_child {p : Path} (mem : p ∈ filesBelow t pruned (place ++ [n]) (path.child n) e) :
    ∃ names, names ≠ [] ∧ p = (path.child n).within names := by
  obtain ⟨names, has, rfl⟩ := (mem_filesBelow distinct).1 mem
  exact ⟨names, has.below, rfl⟩

/-- Seen from a directory, the files of one of its directories stay in their order. -/
theorem child_ordered (ordered : (filesBelow t pruned (place ++ [n]) (path.child n) e).Pairwise (path.child n).Before) :
    (filesBelow t pruned (place ++ [n]) (path.child n) e).Pairwise path.Before := by
  refine ordered.imp_of_mem ?_
  rintro p q first second ⟨ms, ns, rfl, rfl, before⟩
  obtain ⟨ms', filled, same⟩ := filesBelow_child distinct first
  obtain ⟨ns', more, alike⟩ := filesBelow_child distinct second
  obtain rfl := (path.child n).within_injective same
  obtain rfl := (path.child n).within_injective alike
  exact ⟨n :: ms, n :: ns, path.within_child n ms, path.within_child n ns, earlier_cons n filled more before⟩

theorem visit_tidy (ordered : (filesBelow t pruned (place ++ [n]) (path.child n) e).Pairwise (path.child n).Before) :
    (visit t pruned place path (n, e)).Tidy path := by
  rw [visit]
  cases t.leadsToDir (place ++ [n]) e with
  | false =>
    refine ⟨fun _ p mem => ?_, fun isDir => ?_, List.pairwise_singleton _ _⟩
    · exact List.mem_singleton.1 mem
    · cases isDir
  | true =>
    cases kept : pruned n with
    | false =>
      refine ⟨fun isFile => ?_, fun _ p mem => ?_, child_ordered distinct ordered⟩
      · cases isFile
      · obtain ⟨names, filled, rfl⟩ := filesBelow_child distinct mem
        exact ⟨names, filled, path.within_child n names⟩
    | true =>
      refine ⟨fun isFile => ?_, fun _ p mem => ?_, .nil⟩
      · cases isFile
      · cases mem

end Child

theorem filesBelow_ordered {e : Entry} (distinct : e.Distinct) (path : Path) :
    (filesBelow t pruned place path e).Pairwise path.Before := by
  induction distinct generalizing place path with
  | file bytes => exact List.Pairwise.nil
  | link target => exact List.Pairwise.nil
  | @dir entries names inside ih =>
    rw [filesBelow_dir]
    apply gather_ordered
    · intro v mem
      obtain ⟨⟨n, e⟩, listed, rfl⟩ := List.mem_map.1 mem
      exact visit_tidy (inside n e listed) (ih n e listed (path.child n))
    · have same : (entries.map (visit t pruned place path)).map (·.name) = entries.map (·.1) := by
        rw [List.map_map]
        exact List.map_congr_left fun named _ => visit_name path named
      rwa [same]

/-- The names under which files come, if their paths come in the order of the walk. -/
theorem ordered_names {root : Path} {paths : List Path} (below : ∀ p ∈ paths, ∃ names, p = root.within names)
    (ordered : paths.Pairwise root.Before) :
    ∃ found : List (List String), paths = found.map root.within ∧ found.Pairwise Earlier := by
  induction ordered with
  | nil => exact ⟨[], rfl, .nil⟩
  | @cons p paths first later ih =>
    obtain ⟨names, rfl⟩ := below p (by simp)
    obtain ⟨found, rfl, rest⟩ := ih fun q mem => below q (by simp [mem])
    refine ⟨names :: found, rfl, .cons ?_ rest⟩
    intro ns mem
    obtain ⟨ms, ns', same, alike, before⟩ := first _ (List.mem_map_of_mem mem)
    obtain rfl := root.within_injective same
    obtain rfl := root.within_injective alike
    exact before

theorem isPruned_eq_false_iff (ignored : List String) (d : String) :
    isPruned ignored d = false ↔ d ∉ ignored ∧ d.toList.head? ≠ some '.' := by
  rw [isPruned, Bool.or_eq_false_iff, beq_eq_false_iff_ne, ← Bool.not_eq_true, List.contains_iff_mem]

theorem files_of_find {root : Path} (located : t.find root = .ok (place, .dir entries)) (ignored : List String) :
    Code.files t root ignored = .ok (filesBelow t (isPruned ignored) place root (.dir entries)) := by
  have probed : t.probeDir root = .ok true := by rw [Tree.probeDir, Tree.probe, located]; rfl
  have listed : t.list root = .ok (place, entries) := by rw [Tree.list, located]
  rw [Code.files, probed, Tree.walk, listed]
  rfl

/-- In a directory, in whatever order it lists its entries, the walk comes to each file once: to what is no directory and
no link to one, where no directory on the way is a link, has an ignored name or is hidden. It comes to them in
the order of their directories, and in one directory in the order of their names. -/
theorem walk_comes_to_files (t : Tree) (root : Path) (ignored : List String) (place : List String)
    (entries : List (String × Entry)) (located : t.find root = .ok (place, .dir entries))
    (distinct : (Entry.dir entries).Distinct) :
    ∃ found : List (List String), Code.files t root ignored = .ok (found.map root.within) ∧
      (∀ names, names ∈ found ↔ names ≠ [] ∧
        (∃ e, (Entry.dir entries).below? names = some e ∧ t.leadsToDir (place ++ names) e = false) ∧
        ∀ d ∈ names.dropLast, d ∉ ignored ∧ d.toList.head? ≠ some '.') ∧
      (found.map root.within).Nodup ∧ found.Pairwise Earlier := by
  have members : ∀ {p}, p ∈ filesBelow t (isPruned ignored) place root (.dir entries) ↔
      ∃ names, t.HasFile (isPruned ignored) place (.dir entries) names ∧ p = root.within names :=
    mem_filesBelow distinct
  have below : ∀ p ∈ filesBelow t (isPruned ignored) place root (.dir entries), ∃ names, p = root.within names := by
    intro p mem
    obtain ⟨names, -, rfl⟩ := members.1 mem
    exact ⟨names, rfl⟩
  obtain ⟨found, listed, ordered⟩ := ordered_names below (filesBelow_ordered distinct root)
  have once : found.Nodup := by
    refine ordered.imp ?_
    rintro ms ns before rfl
    exact earlier_irrefl ms before
  refine ⟨found, ?_, ?_, ?_, ordered⟩
  · rw [files_of_find located, listed]
  · intro names
    have inside : names ∈ found ↔ root.within names ∈ found.map root.within := by
      rw [List.mem_map_of_injective root.within_injective]
    rw [inside, ← listed, members]
    constructor
    · rintro ⟨names', ⟨below, file, way⟩, same⟩
      obtain rfl := root.within_injective same
      exact ⟨below, file, fun d mem => (isPruned_eq_false_iff ignored d).1 (way d mem)⟩
    · rintro ⟨below, file, way⟩
      exact ⟨names, ⟨below, file, fun d mem => (isPruned_eq_false_iff ignored d).2 (way d mem)⟩, rfl⟩
  · exact List.Nodup.map root.within_injective once

def mixedTree : Tree where
  entries :=
    [("src", .dir [("z.go", .file []), ("up", .link ".."), ("a.go", .file [])]), ("old", .dir [("b.go", .file [])]),
      ("main.go", .file []), (".git", .dir [("c.go", .file [])]), ("gone", .link "nowhere")]

theorem mixedTree_distinct : (Entry.dir mixedTree.entries).Distinct := by
  have file : ∀ name, (Entry.dir [(name, .file [])]).Distinct := by
    intro name
    refine .dir (by simp) fun n e mem => ?_
    cases List.mem_singleton.1 mem
    exact .file []
  have src : (Entry.dir [("z.go", .file []), ("up", .link ".."), ("a.go", .file [])]).Distinct := by
    refine .dir (by decide) fun n e mem => ?_
    simp only [List.mem_cons, Prod.mk.injEq, List.not_mem_nil, or_false] at mem
    rcases mem with ⟨-, rfl⟩ | ⟨-, rfl⟩ | ⟨-, rfl⟩
    · exact .file []
    · exact .link ".."
    · exact .file []
  refine .dir (by decide) fun n e mem => ?_
  simp only [mixedTree, List.mem_cons, Prod.mk.injEq, List.not_mem_nil, or_false] at mem
  rcases mem with ⟨-, rfl⟩ | ⟨-, rfl⟩ | ⟨-, rfl⟩ | ⟨-, rfl⟩ | ⟨-, rfl⟩
  · exact src
  · exact file "b.go"
  · exact .file []
  · exact file "c.go"
  · exact .link "nowhere"

theorem walk_comes_to_files_mixed :
    mixedTree.find ⟨1, []⟩ = .ok ([], .dir mixedTree.entries) ∧ (Entry.dir mixedTree.entries).Distinct ∧
    ∃ found : List (List String), Code.files mixedTree ⟨1, []⟩ ["old"] = .ok (found.map (Path.within ⟨1, []⟩)) ∧
      (∀ names, names ∈ found ↔ names ≠ [] ∧
        (∃ e, (Entry.dir mixedTree.entries).below? names = some e ∧ mixedTree.leadsToDir ([] ++ names) e = false) ∧
        ∀ d ∈ names.dropLast, d ∉ ["old"] ∧ d.toList.head? ≠ some '.') ∧
      (found.map (Path.within ⟨1, []⟩)).Nodup ∧ found.Pairwise Earlier := by
  have located : mixedTree.find ⟨1, []⟩ = .ok ([], .dir mixedTree.entries) := by rfl
  exact ⟨located, mixedTree_distinct,
    walk_comes_to_files mixedTree ⟨1, []⟩ ["old"] [] mixedTree.entries located mixedTree_distinct⟩

end Drift.Files
