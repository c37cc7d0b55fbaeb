import Drift.Proofs.Files.Walk
import Drift.Proofs.Text.Joining

namespace Drift.Files

variable {t : Tree} {place : List String} {entries : List (String × Entry)}

theorem splitExtension_eq_iff {s stem : String} {ext : List Char} (filled : ext ≠ []) (free : '.' ∉ ext) :
    splitExtension s = (stem, String.ofList ('.' :: ext)) ↔ s = stem ++ String.ofList ('.' :: ext) ∧ stem ≠ "" := by
  rw [splitExtension]
  constructor
  · intro split
    split at split
    · next before after cut =>
      obtain ⟨whole, -⟩ := Text.cutAtLast_eq_some_iff.1 cut
      split at split
      · simp at split
      · next parts =>
        obtain ⟨rfl, same⟩ := Prod.mk.inj split
        obtain rfl : after = ext := List.tail_eq_of_cons_eq (String.ofList_injective same)
        have named : before ≠ [] := fun empty => parts (by simp [empty])
        refine ⟨?_, by simpa using named⟩
        rw [← String.ofList_append, ← whole, String.ofList_toList]
    · simp at split
  · rintro ⟨rfl, named⟩
    have cut : Text.cutAtLast? '.' (stem ++ String.ofList ('.' :: ext)).toList = some (stem.toList, ext) :=
      Text.cutAtLast_eq_some_iff.2 ⟨by simp, free⟩
    have parts : (stem.toList.isEmpty || ext.isEmpty) = false := by simp [named, filled]
    simp only [cut, parts, Bool.false_eq_true, if_false, String.ofList_toList]

theorem sortNames_increasing {names : List String} (distinct : names.Nodup) : (sortNames names).Pairwise (· < ·) :=
  increasing_mergeSort id (by simpa using distinct)

theorem mem_sortNames {names : List String} {n : String} : n ∈ sortNames names ↔ n ∈ names :=
  List.mem_mergeSort

theorem Entry.Distinct.names (distinct : (Entry.dir entries).Distinct) : (entries.map (·.1)).Nodup := by
  cases distinct with
  | dir names inside => exact names

theorem Entry.Distinct.lookup (distinct : (Entry.dir entries).Distinct) {n : String} {e : Entry}
    (found : entries.lookup n = some e) : e.Distinct := by
  cases distinct with
  | dir names inside => exact inside n e ((lookup_iff_mem names).1 found)

theorem Entry.below?_append (e : Entry) (ms ns : List String) :
    e.below? (ms ++ ns) = (e.below? ms).bind (·.below? ns) := by
  induction ms generalizing e with
  | nil => simp [Entry.below?]
  | cons m ms ih =>
    cases e with
    | file bytes => rfl
    | link target => rfl
    | dir entries =>
      rw [List.cons_append, Entry.below?, Entry.below?, Option.bind_assoc]
      simp only [ih]

theorem Entry.below?_concat {e : Entry} {names : List String} (there : e.below? names = some (.dir entries)) (n : String) :
    e.below? (names ++ [n]) = entries.lookup n := by
  rw [Entry.below?_append, there]
  simp [Entry.below?]

theorem Entry.Distinct.of_below? {e : Entry} (distinct : e.Distinct) {names : List String} {found : Entry}
    (here : e.below? names = some found) : found.Distinct := by
  induction names generalizing e with
  | nil =>
    cases here
    exact distinct
  | cons n names ih =>
    cases e with
    | file bytes => cases here
    | link target => cases here
    | dir entries =>
      obtain ⟨sub, inside, later⟩ := Option.bind_eq_some_iff.1 here
      exact ih (distinct.lookup inside) later

namespace Tree

section Parts

variable {last : Bool} {onLink : List String → List String → Except Trouble (List String × Entry)}
  {here rest : List String} {part : String} {found : List String × Entry}

theorem followParts_up (there : t.top.below? here = some (.dir entries)) :
    t.followParts last onLink here (".." :: rest) = t.followParts last onLink here.dropLast rest := by
  simp only [followParts, there, if_true]

theorem followParts_into {e : Entry} (there : t.top.below? here = some (.dir entries)) (proper : part ≠ "..")
    (short : ¬ maxName < byteCount part) (inside : entries.lookup part = some e) (solid : ∀ target, e ≠ .link target) :
    t.followParts last onLink here (part :: rest) = t.followParts last onLink (here ++ [part]) rest := by
  cases e with
  | link target => exact absurd rfl (solid target)
  | file bytes => simp only [followParts, there, if_neg proper, if_neg short, inside]
  | dir sub => simp only [followParts, there, if_neg proper, if_neg short, inside]

theorem followParts_link {target : String} (there : t.top.below? here = some (.dir entries)) (proper : part ≠ "..")
    (short : ¬ maxName < byteCount part) (inside : entries.lookup part = some (.link target)) :
    t.followParts last onLink here (part :: rest) =
      if rest.isEmpty && !last then .ok (here ++ [part], .link target)
      else onLink (if (Path.ofString target).isAbsolute then [] else here) ((Path.ofString target).parts ++ rest) := by
  simp only [followParts, there, if_neg proper, if_neg short, inside]

/-- A way that leads somewhere goes on from a directory: up, into an entry that is no link, or to a link. -/
theorem followParts_cons_ok (led : t.followParts last onLink here (part :: rest) = .ok found) :
    ∃ entries, t.top.below? here = some (.dir entries) ∧
      (part = ".." ∨ part ≠ ".." ∧ ¬ maxName < byteCount part ∧ ∃ e, entries.lookup part = some e) := by
  rw [followParts] at led
  split at led
  · next entries there =>
    refine ⟨entries, there, ?_⟩
    by_cases up : part = ".."
    · exact .inl up
    rw [if_neg up] at led
    split at led
    · cases led
    · next short =>
      cases inside : entries.lookup part with
      | none => simp [inside] at led
      | some e => exact .inr ⟨up, short, e, rfl⟩
  · cases led
  · cases led

theorem followParts_nil_ok (led : t.followParts last onLink here [] = .ok found) :
    found.1 = here ∧ t.top.below? here = some found.2 := by
  rw [followParts] at led
  split at led
  · next e there =>
    cases led
    exact ⟨rfl, there⟩
  · cases led

theorem below_of_followParts
    (links : ∀ {here parts found}, onLink here parts = .ok found → t.top.below? found.1 = some found.2)
    {parts : List String} (led : t.followParts last onLink here parts = .ok found) :
    t.top.below? found.1 = some found.2 := by
  induction parts generalizing here with
  | nil =>
    obtain ⟨same, there⟩ := followParts_nil_ok led
    rw [same, there]
  | cons part rest ih =>
    obtain ⟨entries, there, rfl | ⟨proper, short, e, inside⟩⟩ := followParts_cons_ok led
    · rw [followParts_up there] at led
      exact ih led
    cases e with
    | file bytes =>
      rw [followParts_into there proper short inside (by simp)] at led
      exact ih led
    | dir sub =>
      rw [followParts_into there proper short inside (by simp)] at led
      exact ih led
    | link target =>
      rw [followParts_link there proper short inside] at led
      split at led
      · cases led
        rw [Entry.below?_concat there, inside]
      · exact links led

end Parts

theorem below_of_follow {last : Bool} {links : Nat} {here parts : List String} {found : List String × Entry}
    (led : t.follow last links here parts = .ok found) : t.top.below? found.1 = some found.2 := by
  induction links generalizing here parts found with
  | zero => exact below_of_followParts (fun led => by cases led) led
  | succ links ih => exact below_of_followParts ih led

theorem below_of_find {p : Path} {e : Entry} (led : t.find p = .ok (place, e)) : t.top.below? place = some e := by
  rw [find, locate] at led
  split at led
  · cases led
  split at led
  · cases led
  · exact below_of_follow led

theorem list_eq_ok_iff {p : Path} : t.list p = .ok (place, entries) ↔ t.find p = .ok (place, .dir entries) := by
  rw [list]
  rcases t.find p with trouble | ⟨here, e⟩
  · simp
  · cases e <;> simp

theorem probeDir_eq_true_iff {p : Path} : t.probeDir p = .ok true ↔ t.isDir p = true := by
  rw [probeDir, probe, isDir]
  rcases t.find p with trouble | ⟨here, e⟩
  · cases trouble <;> simp
  · simp

theorem probeFile_eq_true_iff {p : Path} : t.probeFile p = .ok true ↔ t.isFile p = true := by
  rw [probeFile, probe, isFile]
  rcases t.find p with trouble | ⟨here, e⟩
  · cases trouble <;> simp
  · simp

theorem names_of_list (distinct : t.top.Distinct) {p : Path} (listed : t.list p = .ok (place, entries)) :
    (entries.map (·.1)).Nodup :=
  (distinct.of_below? (below_of_find (list_eq_ok_iff.1 listed))).names

def Lists (t : Tree) (p : Path) (n : String) (e : Entry) : Prop :=
  ∃ place entries, t.list p = .ok (place, entries) ∧ entries.lookup n = some e

theorem mem_names_iff_lists {p : Path} (listed : t.list p = .ok (place, entries)) {n : String} :
    n ∈ entries.map (·.1) ↔ ∃ e, t.Lists p n e := by
  constructor
  · intro mem
    cases found : entries.lookup n with
    | some e => exact ⟨e, place, entries, listed, found⟩
    | none =>
      obtain ⟨⟨m, e⟩, inside, rfl⟩ := List.mem_map.1 mem
      simpa using List.lookup_eq_none_iff.1 found _ inside
  · rintro ⟨e, place', entries', relisted, found⟩
    rw [listed] at relisted
    cases relisted
    obtain ⟨before, after, rfl, -⟩ := List.lookup_eq_some_iff.1 found
    simp

section Child

variable {n : String} {e : Entry}

/-- One name further than to a directory lies the entry of that name in it, if it is no link. -/
theorem followParts_concat {onLink : List String → List String → Except Trouble (List String × Entry)}
    (proper : n ≠ "..") (solid : ∀ target, e ≠ .link target)
    (links : ∀ {place parts here entries}, onLink place parts = .ok (here, .dir entries) → entries.lookup n = some e →
      onLink place (parts ++ [n]) = if maxName < byteCount n then .error .tooLong else .ok (here ++ [n], e))
    {here parts : List String} (led : t.followParts true onLink here parts = .ok (place, .dir entries))
    (found : entries.lookup n = some e) :
    t.followParts true onLink here (parts ++ [n]) =
      if maxName < byteCount n then .error .tooLong else .ok (place ++ [n], e) := by
  induction parts generalizing here with
  | nil =>
    obtain ⟨rfl, there⟩ := followParts_nil_ok led
    split
    · next long => simp only [List.nil_append, followParts, there, if_neg proper, if_pos long]
    · next short =>
      rw [List.nil_append, followParts_into there proper short found solid, followParts, Entry.below?_concat there, found]
  | cons part rest ih =>
    obtain ⟨sub, there, rfl | ⟨down, short, next, inside⟩⟩ := followParts_cons_ok led
    · rw [followParts_up there] at led
      rw [List.cons_append, followParts_up there, ih led]
    rw [List.cons_append]
    cases next with
    | file bytes =>
      rw [followParts_into there down short inside (by simp)] at led ⊢
      exact ih led
    | dir deeper =>
      rw [followParts_into there down short inside (by simp)] at led ⊢
      exact ih led
    | link target =>
      rw [followParts_link there down short inside, Bool.not_true, Bool.and_false, if_neg Bool.false_ne_true] at led ⊢
      rw [← List.append_assoc]
      exact links led found

theorem follow_concat (proper : n ≠ "..") (solid : ∀ target, e ≠ .link target) {links : Nat} {here parts : List String}
    (led : t.follow true links here parts = .ok (place, .dir entries)) (found : entries.lookup n = some e) :
    t.follow true links here (parts ++ [n]) =
      if maxName < byteCount n then .error .tooLong else .ok (place ++ [n], e) := by
  induction links generalizing here parts place entries with
  | zero => exact followParts_concat proper solid (fun led _ => by cases led) led found
  | succ links ih => exact followParts_concat proper solid (fun led found => ih led found) led found

/-- What is no link in a directory is what its path leads to, if it is not too long to lead anywhere. -/
theorem find_child {p : Path} (proper : n ≠ "..") (solid : ∀ target, e ≠ .link target)
    (led : t.find p = .ok (place, .dir entries)) (found : entries.lookup n = some e) :
    t.find (p.child n) = .ok (place ++ [n], e) ∨ ∃ trouble, t.find (p.child n) = .error trouble := by
  rw [find, locate] at led
  split at led
  · cases led
  split at led
  · cases led
  have further := follow_concat proper solid led found
  rw [find, locate]
  split
  · exact .inr ⟨_, rfl⟩
  split
  · exact .inr ⟨_, rfl⟩
  have origin : t.origin (p.child n) = t.origin p := rfl
  have parts : (p.child n).parts = p.parts ++ [n] := rfl
  rw [origin, parts, further]
  split
  · exact .inr ⟨_, rfl⟩
  · exact .inl rfl

theorem find_eq_of_lists {p : Path} (proper : n ≠ "..") (solid : ∀ target, e ≠ .link target) (listed : t.Lists p n e)
    {found : List String × Entry} (led : t.find (p.child n) = .ok found) : ∃ place, found = (place ++ [n], e) := by
  obtain ⟨place, entries, listed, here⟩ := listed
  rcases find_child proper solid (list_eq_ok_iff.1 listed) here with there | ⟨trouble, there⟩
  · rw [there] at led
    cases led
    exact ⟨place, rfl⟩
  · rw [there] at led
    cases led

theorem isDir_of_isDir_child {p : Path} (proper : n ≠ "..") (solid : ∀ target, e ≠ .link target) (listed : t.Lists p n e)
    (isDir : t.isDir (p.child n) = true) : e.isDir = true := by
  rw [Tree.isDir] at isDir
  split at isDir
  · next place found led =>
    obtain ⟨place, same⟩ := find_eq_of_lists proper solid listed led
    cases same
    exact isDir
  · cases isDir

theorem isFile_of_isFile_child {p : Path} (proper : n ≠ "..") (solid : ∀ target, e ≠ .link target) (listed : t.Lists p n e)
    (isFile : t.isFile (p.child n) = true) : e.isFile = true ∧ ∃ place, t.find (p.child n) = .ok (place ++ [n], e) := by
  rw [Tree.isFile] at isFile
  split at isFile
  · next place found led =>
    obtain ⟨place, same⟩ := find_eq_of_lists proper solid listed led
    cases same
    exact ⟨isFile, place, led⟩
  · cases isFile

end Child

end Tree

end Drift.Files
