import Drift.Proofs.Files.Paths

namespace Drift.Files

abbrev Revision := List String → List UInt8 → Option (List UInt8)

def Revision.KeepsFiles (change : Revision) : Prop := ∀ place bytes, change place bytes ≠ none

mutual

def Entry.revised (change : Revision) (place : List String) : Entry → Option Entry
  | .file bytes => (change place bytes).map .file
  | .link target => some (.link target)
  | .dir entries => some (.dir (revisedAll change place entries))

def revisedAll (change : Revision) (place : List String) : List (String × Entry) → List (String × Entry)
  | [] => []
  | (n, e) :: r =>
    match e.revised change (place ++ [n]) with
    | some e' => (n, e') :: revisedAll change place r
    | none => revisedAll change place r

end

def Tree.revised (t : Tree) (change : Revision) : Tree := { t with entries := revisedAll change [] t.entries }

variable {t : Tree} {change : Revision} {place : List String} {entries : List (String × Entry)}

theorem mem_revisedAll {n : String} {e' : Entry} :
    (n, e') ∈ revisedAll change place entries ↔ ∃ e, (n, e) ∈ entries ∧ e.revised change (place ++ [n]) = some e' := by
  induction entries with
  | nil => simp [revisedAll]
  | cons named entries ih =>
    obtain ⟨m, e⟩ := named
    rw [revisedAll]
    cases later : e.revised change (place ++ [m]) with
    | none =>
      simp only [ih, List.mem_cons, Prod.mk.injEq]
      constructor
      · rintro ⟨x, mem, becomes⟩
        exact ⟨x, .inr mem, becomes⟩
      · rintro ⟨x, ⟨rfl, rfl⟩ | mem, becomes⟩
        · rw [later] at becomes
          cases becomes
        · exact ⟨x, mem, becomes⟩
    | some kept =>
      simp only [ih, List.mem_cons, Prod.mk.injEq]
      constructor
      · rintro (⟨rfl, rfl⟩ | ⟨x, mem, becomes⟩)
        · exact ⟨e, .inl ⟨rfl, rfl⟩, later⟩
        · exact ⟨x, .inr mem, becomes⟩
      · rintro ⟨x, ⟨rfl, rfl⟩ | mem, becomes⟩
        · rw [later] at becomes
          cases becomes
          exact .inl ⟨rfl, rfl⟩
        · exact .inr ⟨x, mem, becomes⟩

theorem names_revisedAll : ((revisedAll change place entries).map (·.1)).Sublist (entries.map (·.1)) := by
  induction entries with
  | nil => exact .slnil
  | cons named entries ih =>
    obtain ⟨n, e⟩ := named
    rw [revisedAll]
    cases e.revised change (place ++ [n]) with
    | none => exact ih.cons n
    | some kept => exact ih.cons_cons n

theorem lookup_revisedAll (names : (entries.map (·.1)).Nodup) (n : String) :
    (revisedAll change place entries).lookup n = (entries.lookup n).bind (·.revised change (place ++ [n])) := by
  ext e'
  rw [lookup_iff_mem (names.sublist names_revisedAll), mem_revisedAll, Option.bind_eq_some_iff]
  simp only [lookup_iff_mem names]

/-- What lies below a revised entry is what lay there before, revised. -/
theorem Entry.below?_revised {e : Entry} (distinct : e.Distinct) (place names : List String) :
    (e.revised change place).bind (·.below? names) = (e.below? names).bind (·.revised change (place ++ names)) := by
  induction names generalizing e place with
  | nil => simp [Entry.below?]
  | cons n names ih =>
    cases e with
    | file bytes =>
      rw [Entry.revised]
      cases change place bytes <;> rfl
    | link target => rfl
    | dir entries =>
      rw [Entry.revised, Option.bind_some, Entry.below?, lookup_revisedAll distinct.names, Entry.below?,
        Option.bind_assoc, Option.bind_assoc]
      cases found : entries.lookup n with
      | none => rfl
      | some sub => simpa using ih (distinct.lookup found) (place ++ [n])

theorem Tree.below?_revised (distinct : t.top.Distinct) (names : List String) :
    (t.revised change).top.below? names = (t.top.below? names).bind (·.revised change names) :=
  Entry.below?_revised distinct [] names

theorem Entry.Distinct.revised {e e' : Entry} (distinct : e.Distinct) (becomes : e.revised change place = some e') :
    e'.Distinct := by
  induction distinct generalizing place e' with
  | file bytes =>
    obtain ⟨bytes', -, rfl⟩ := Option.map_eq_some_iff.1 becomes
    exact .file bytes'
  | link target =>
    cases becomes
    exact .link target
  | dir names inside ih =>
    cases becomes
    refine .dir (names.sublist names_revisedAll) fun n sub' mem => ?_
    obtain ⟨sub, mem, later⟩ := mem_revisedAll.1 mem
    exact ih n sub mem later

theorem Tree.distinct_revised (distinct : t.top.Distinct) : (t.revised change).top.Distinct := by
  have becomes : t.top.revised change [] = some (t.revised change).top := rfl
  exact distinct.revised becomes

inductive Revised (change : Revision) :
    Except Trouble (List String × Entry) → Except Trouble (List String × Entry) → Prop where
  | found {place e e'} (becomes : e.revised change place = some e') : Revised change (.ok (place, e)) (.ok (place, e'))
  | gone {place bytes} (goes : change place bytes = none) : Revised change (.ok (place, .file bytes)) (.error .absent)
  | beyond : Revised change (.error .notDirectory) (.error .absent)
  | failed (e : Trouble) : Revised change (.error e) (.error e)

theorem Revised.of_entry (place : List String) (e : Entry) :
    Revised change (.ok (place, e)) (match e.revised change place with
      | some e' => .ok (place, e')
      | none => .error .absent) := by
  cases becomes : e.revised change place with
  | some e' => exact .found becomes
  | none =>
    cases e with
    | file bytes => exact .gone (by simpa [Entry.revised] using becomes)
    | link target => cases becomes
    | dir entries => cases becomes

theorem Tree.followParts_gone {last : Bool} {onLink : List String → List String → Except Trouble (List String × Entry)}
    {bytes : List UInt8} (there : t.top.below? place = some (.file bytes)) (goes : change place bytes = none)
    (rest : List String) : Revised change (t.followParts last onLink place rest) (.error .absent) := by
  cases rest with
  | nil =>
    simp only [followParts, there]
    exact .gone goes
  | cons next rest =>
    simp only [followParts, there]
    exact .beyond

theorem Tree.followParts_revised (distinct : t.top.Distinct) {last : Bool}
    {onLink onLink' : List String → List String → Except Trouble (List String × Entry)}
    (links : ∀ place parts, Revised change (onLink place parts) (onLink' place parts)) (place parts : List String) :
    Revised change (t.followParts last onLink place parts) ((t.revised change).followParts last onLink' place parts) := by
  induction parts generalizing place with
  | nil =>
    rw [followParts, followParts, below?_revised distinct]
    cases t.top.below? place with
    | none => exact .failed .absent
    | some e =>
      simp only [Option.bind_some]
      exact Revised.of_entry place e
  | cons part rest ih =>
    rw [followParts, followParts, below?_revised distinct]
    cases here : t.top.below? place with
    | none => exact .failed .absent
    | some e =>
      cases e with
      | file bytes =>
        rw [Option.bind_some, Entry.revised]
        cases change place bytes with
        | none => exact .beyond
        | some bytes' => exact .failed .notDirectory
      | link target => exact .failed .notDirectory
      | dir entries =>
        have inside : (Entry.dir entries).Distinct := distinct.of_below? here
        have beneath := Entry.below?_concat here part
        simp only [Option.bind_some, Entry.revised, lookup_revisedAll inside.names]
        split
        · exact ih place.dropLast
        split
        · exact .failed .tooLong
        cases found : entries.lookup part with
        | none => exact .failed .absent
        | some e =>
          rw [found] at beneath
          cases e with
          | dir sub => exact ih (place ++ [part])
          | link target =>
            simp only [Option.bind_some, Entry.revised]
            split
            · exact .found rfl
            · exact links _ _
          | file bytes =>
            simp only [Option.bind_some, Entry.revised]
            cases goes : change (place ++ [part]) bytes with
            | some bytes' => exact ih (place ++ [part])
            | none => exact followParts_gone beneath goes rest

theorem Tree.follow_revised (distinct : t.top.Distinct) (last : Bool) (links : Nat) (place parts : List String) :
    Revised change (t.follow last links place parts) ((t.revised change).follow last links place parts) := by
  induction links generalizing place parts with
  | zero => exact followParts_revised distinct (fun _ _ => .failed .linkLoop) place parts
  | succ links ih => exact followParts_revised distinct ih place parts

theorem Tree.find_revised (change : Revision) (distinct : t.top.Distinct) (p : Path) :
    Revised change (t.find p) ((t.revised change).find p) := by
  rw [find, find, locate, locate]
  split
  · exact .failed _
  split
  · exact .failed .tooLong
  · exact follow_revised distinct true maxLinks (t.origin p) p.parts

theorem Entry.shape_of_revised {e e' : Entry} (becomes : e.revised change place = some e') :
    e'.isDir = e.isDir ∧ e'.isFile = e.isFile := by
  cases e with
  | file bytes =>
    obtain ⟨bytes', -, rfl⟩ := Option.map_eq_some_iff.1 becomes
    exact ⟨rfl, rfl⟩
  | link target =>
    cases becomes
    exact ⟨rfl, rfl⟩
  | dir entries =>
    cases becomes
    exact ⟨rfl, rfl⟩

namespace Tree

section Revised

variable (distinct : t.top.Distinct) (p : Path)
include distinct

theorem probeDir_revised : (t.revised change).probeDir p = t.probeDir p := by
  have led := find_revised change distinct p
  rw [probeDir, probeDir, probe, probe]
  generalize t.find p = before, (t.revised change).find p = after at led
  cases led with
  | found becomes => simp [(Entry.shape_of_revised becomes).1]
  | gone goes => rfl
  | beyond => rfl
  | failed e => rfl

theorem isDir_revised : (t.revised change).isDir p = t.isDir p := by
  rw [Bool.eq_iff_iff, ← probeDir_eq_true_iff, probeDir_revised distinct, probeDir_eq_true_iff]

/-- What is done to files makes no path too long to be asked for, and no other path one to a file. -/
theorem probeFile_revised (change : Revision) {b : Bool} (told : t.probeFile p = .ok b) :
    ∃ b', (t.revised change).probeFile p = .ok b' ∧ (b' = true → b = true) ∧ (change.KeepsFiles → b' = b) := by
  have led := find_revised change distinct p
  rw [probeFile, probe] at told ⊢
  generalize t.find p = before, (t.revised change).find p = after at led told ⊢
  cases led with
  | found becomes =>
    cases told
    exact ⟨_, rfl, by simp [(Entry.shape_of_revised becomes).2], fun _ => (Entry.shape_of_revised becomes).2⟩
  | gone goes =>
    cases told
    exact ⟨false, rfl, by simp, fun keeps => absurd goes (keeps _ _)⟩
  | beyond =>
    cases told
    exact ⟨false, rfl, by simp, fun _ => rfl⟩
  | failed e => exact ⟨b, told, id, fun _ => rfl⟩

theorem probeExists_revised_eq_false (told : t.probeExists p = .ok false) :
    (t.revised change).probeExists p = .ok false := by
  have led := find_revised change distinct p
  rw [probeExists, probe] at told ⊢
  generalize t.find p = before, (t.revised change).find p = after at led told ⊢
  cases led with
  | found becomes => cases told
  | gone goes => cases told
  | beyond => rfl
  | failed e => exact told

theorem isFile_of_revised (isFile : (t.revised change).isFile p = true) : t.isFile p = true := by
  have led := find_revised change distinct p
  rw [Tree.isFile] at isFile ⊢
  generalize t.find p = before, (t.revised change).find p = after at led isFile ⊢
  cases led with
  | found becomes => simpa [(Entry.shape_of_revised becomes).2] using isFile
  | gone goes => rfl
  | beyond => cases isFile
  | failed e => exact isFile

theorem list_revised {p : Path} (listed : t.list p = .ok (place, entries)) :
    (t.revised change).list p = .ok (place, revisedAll change place entries) := by
  have led := find_revised change distinct p
  rw [list_eq_ok_iff] at listed ⊢
  generalize (t.revised change).find p = after at led ⊢
  rw [listed] at led
  cases led with
  | found becomes =>
    cases becomes
    rfl

theorem list_of_revised {p : Path} {entries' : List (String × Entry)}
    (listed : (t.revised change).list p = .ok (place, entries')) :
    ∃ entries, t.list p = .ok (place, entries) ∧ entries' = revisedAll change place entries := by
  have led := find_revised change distinct p
  simp only [list_eq_ok_iff] at listed ⊢
  generalize t.find p = before at led ⊢
  rw [listed] at led
  cases led with
  | @found place e e' becomes =>
    cases e with
    | dir entries =>
      cases becomes
      exact ⟨entries, rfl, rfl⟩
    | file bytes => simp [Entry.revised] at becomes
    | link target => cases becomes

end Revised

section Lists

variable (distinct : t.top.Distinct) {p : Path} {n : String}
include distinct

theorem lists_of_revised {e' : Entry} (listed : (t.revised change).Lists p n e') : ∃ e, t.Lists p n e := by
  obtain ⟨place, entries', listed, found⟩ := listed
  obtain ⟨entries, before, rfl⟩ := list_of_revised distinct listed
  rw [lookup_revisedAll (names_of_list distinct before), Option.bind_eq_some_iff] at found
  obtain ⟨e, here, -⟩ := found
  exact ⟨e, place, entries, before, here⟩

theorem lists_revised {e : Entry} (listed : t.Lists p n e)
    (stays : ∀ place, ∃ e', e.revised change (place ++ [n]) = some e') : ∃ e', (t.revised change).Lists p n e' := by
  obtain ⟨place, entries, listed, found⟩ := listed
  obtain ⟨e', becomes⟩ := stays place
  refine ⟨e', place, _, list_revised distinct listed, ?_⟩
  rw [lookup_revisedAll (names_of_list distinct listed), found, Option.bind_some, becomes]

theorem dir_revised_iff (change : Revision) (proper : n ≠ "..") :
    (∃ e', (t.revised change).Lists p n e') ∧ (t.revised change).isDir (p.child n) = true ↔
      (∃ e, t.Lists p n e) ∧ t.isDir (p.child n) = true := by
  rw [isDir_revised distinct]
  refine and_congr_left fun isDir => ⟨?_, ?_⟩
  · rintro ⟨e', listed⟩
    exact lists_of_revised distinct listed
  · rintro ⟨e, listed⟩
    cases e with
    | file bytes => cases isDir_of_isDir_child proper (by simp) listed isDir
    | link target => exact lists_revised distinct listed fun _ => ⟨_, rfl⟩
    | dir sub => exact lists_revised distinct listed fun _ => ⟨_, rfl⟩

theorem file_of_revised (file : (∃ e', (t.revised change).Lists p n e') ∧ (t.revised change).isFile (p.child n) = true) :
    (∃ e, t.Lists p n e) ∧ t.isFile (p.child n) = true := by
  obtain ⟨⟨e', listed⟩, isFile⟩ := file
  exact ⟨lists_of_revised distinct listed, isFile_of_revised distinct _ isFile⟩

/-- A file of a directory stays if the revision keeps its bytes, and a link if it still leads to a file. -/
theorem file_revised (proper : n ≠ "..") (kept : ∀ place bytes, change (place ++ [n]) bytes ≠ none)
    (links : ∀ target, t.Lists p n (.link target) → (t.revised change).isFile (p.child n) = true)
    (file : (∃ e, t.Lists p n e) ∧ t.isFile (p.child n) = true) :
    (∃ e', (t.revised change).Lists p n e') ∧ (t.revised change).isFile (p.child n) = true := by
  obtain ⟨⟨e, listed⟩, isFile⟩ := file
  cases e with
  | link target => exact ⟨lists_revised distinct listed fun _ => ⟨_, rfl⟩, links target listed⟩
  | dir sub => cases (isFile_of_isFile_child proper (by simp) listed isFile).1
  | file bytes =>
    have stays : ∀ place, ∃ e', (Entry.file bytes).revised change (place ++ [n]) = some e' := by
      intro place
      obtain ⟨bytes', becomes⟩ := Option.ne_none_iff_exists'.1 (kept place bytes)
      exact ⟨.file bytes', by rw [Entry.revised, becomes]; rfl⟩
    refine ⟨lists_revised distinct listed stays, ?_⟩
    obtain ⟨-, place, led⟩ := isFile_of_isFile_child proper (by simp) listed isFile
    have still := find_revised change distinct (p.child n)
    rw [led] at still
    rw [Tree.isFile]
    generalize (t.revised change).find (p.child n) = after at still ⊢
    cases still with
    | found becomes => exact (Entry.shape_of_revised becomes).2
    | gone goes => exact absurd goes (kept place bytes)

end Lists

end Tree

end Drift.Files
