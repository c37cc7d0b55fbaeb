import Drift.Proofs.Source.Scan

namespace Drift.Source

variable {ι α : Type} {earlier : List ι} {i : ι}

def nearest (p : ι → Bool) (earlier : List ι) : Option (List ι × ι) :=
  (withEarlier earlier).reverse.find? fun (_, i) => p i

theorem nearest_concat (p : ι → Bool) (earlier : List ι) (i : ι) :
    nearest p (earlier ++ [i]) = if p i then some (earlier, i) else nearest p earlier := by
  rw [nearest, withEarlier_concat, List.reverse_append]
  cases here : p i with
  | true => exact List.find?_cons_of_pos here
  | false => exact List.find?_cons_of_neg (by simp [here])

section Marks

variable (mark : ι → Option α) (takes : ι → Bool)

def standing (earlier : List ι) : Option α :=
  (nearest (fun i => (mark i).isSome || takes i) earlier).bind fun (_, i) => mark i

def taken (is : List ι) : List α :=
  (withEarlier is).filterMap fun (earlier, i) => if takes i then standing mark takes earlier else none

variable {mark takes}

theorem standing_marked {a : α} (marked : mark i = some a) : standing mark takes (earlier ++ [i]) = some a := by
  rw [standing, nearest_concat, if_pos (by simp [marked])]
  exact marked

theorem standing_taken (unmarked : mark i = none) (taking : takes i = true) :
    standing mark takes (earlier ++ [i]) = none := by
  rw [standing, nearest_concat, if_pos (by simp [taking])]
  exact unmarked

theorem standing_passed (unmarked : mark i = none) (passed : takes i = false) :
    standing mark takes (earlier ++ [i]) = standing mark takes earlier := by
  rw [standing, nearest_concat, if_neg (by simp [unmarked, passed]), standing]

theorem mem_of_standing {a : α} (stands : standing mark takes earlier = some a) : ∃ i ∈ earlier, mark i = some a := by
  induction earlier using List.reverseRecOn with
  | nil => cases stands
  | append_singleton earlier i ih =>
    cases marked : mark i with
    | some b =>
      rw [standing_marked marked] at stands
      exact ⟨i, by simp, marked.trans stands⟩
    | none =>
      cases taking : takes i with
      | true =>
        rw [standing_taken marked taking] at stands
        cases stands
      | false =>
        rw [standing_passed marked taking] at stands
        obtain ⟨j, mem, set⟩ := ih stands
        exact ⟨j, by simp [mem], set⟩

theorem taken_concat (is : List ι) (i : ι) :
    taken mark takes (is ++ [i]) = taken mark takes is ++ if takes i then (standing mark takes is).toList else [] := by
  rw [taken, withEarlier_concat, List.filterMap_append, taken]
  cases taking : takes i with
  | true => cases stands : standing mark takes is <;> simp [taking, stands]
  | false => simp [taking]

/-- Each mark is taken once at most, and they are taken in the order in which they stand. -/
theorem taken_sublist (apart : ∀ i, takes i = true → mark i = none) (is : List ι) :
    (taken mark takes is).Sublist (is.filterMap mark) := by
  -- the mark that still stands comes behind those that were taken
  have waiting : (taken mark takes is ++ (standing mark takes is).toList).Sublist (is.filterMap mark) := by
    induction is using List.reverseRecOn with
    | nil => exact .slnil
    | append_singleton is i ih =>
      have before : (taken mark takes is).Sublist (is.filterMap mark) := (List.sublist_append_left _ _).trans ih
      rw [taken_concat, List.filterMap_append]
      cases taking : takes i with
      | true =>
        rw [standing_taken (apart i taking) taking, if_pos rfl, Option.toList_none, List.append_nil]
        exact ih.trans (List.sublist_append_left _ _)
      | false =>
        rw [if_neg Bool.false_ne_true, List.append_nil]
        cases marked : mark i with
        | some a =>
          rw [standing_marked marked]
          simpa [marked] using before
        | none =>
          rw [standing_passed marked taking]
          exact ih.trans (List.sublist_append_left _ _)
  exact (List.sublist_append_left _ _).trans waiting

end Marks

end Drift.Source
