import Drift.Check.Endpoints

namespace Drift.Check

theorem firstWithKeys_cons {α : Type} {key : α → String} {x : α} {ks : List String} (absent : key x ∉ ks)
    (xs : List α) :
    ks.filterMap (fun k => (x :: xs).find? (key · == k)) = ks.filterMap fun k => xs.find? (key · == k) := by
  induction ks with
  | nil => rfl
  | cons k ks ih =>
    have other : (key x == k) = false := beq_false_of_ne fun same => absent (by simp [same])
    rw [List.filterMap_cons, List.filterMap_cons, List.find?_cons, other, ih fun mem => absent (by simp [mem])]

/-- What is kept of a list: for each key that is new, in order, the first element that has it. -/
theorem firstByKey_eq {α : Type} (key : α → String) (seen : List String) (xs : List α) :
    firstByKey key seen xs =
      ((xs.map key).filter fun k => !seen.contains k).eraseDups.filterMap fun k => xs.find? (key · == k) := by
  induction xs generalizing seen with
  | nil => rfl
  | cons x xs ih =>
    rw [firstByKey, List.map_cons, List.filter_cons]
    -- `x` is dropped if its key was seen, and else found for its key, which is then passed over
    by_cases old : seen.contains (key x) = true
    · have absent : key x ∉ ((xs.map key).filter fun k => !seen.contains k).eraseDups := by
        rw [List.mem_eraseDups, List.mem_filter, old]
        simp
      rw [if_pos old, if_neg (by rw [old]; decide), firstWithKeys_cons absent, ih]
    · have here : (x :: xs).find? (key · == key x) = some x := by simp
      have later : ((xs.map key).filter fun k => !(key x :: seen).contains k) =
          ((xs.map key).filter fun k => !seen.contains k).filter fun k => !k == key x := by
        rw [List.filter_filter]
        congr 1
        funext k
        rw [List.contains_cons, Bool.not_or]
      have absent : key x ∉ ((xs.map key).filter fun k => !(key x :: seen).contains k).eraseDups := by
        rw [List.mem_eraseDups, List.mem_filter]
        simp
      rw [if_neg old, if_pos (by simpa using old), List.eraseDups_cons, List.filterMap_cons, here, ← later,
        firstWithKeys_cons absent, ih]

/-- One endpoint for each key that the others lack, in the order of the keys: the first that has it. -/
theorem absentFrom_eq (others es : List Endpoint) :
    absentFrom others es =
      ((es.map Endpoint.key).eraseDups.filter fun k => !(others.map Endpoint.key).contains k).filterMap fun k =>
        es.find? (·.key == k) := by
  have all : ((es.map Endpoint.key).filter fun k => !([] : List String).contains k) = es.map Endpoint.key := by
    simp
  rw [absentFrom, firstByKey_eq, all, List.filter_filterMap, List.filterMap_filter]
  congr 1
  funext k
  cases found : es.find? (·.key == k) with
  | none => simp
  | some e =>
    have same : e.key = k := by simpa using List.find?_some found
    simp [same, Option.filter]

section Labelled

variable {ρ : Type} {label : ρ → String} {shown : ρ → Nat → Endpoint}

theorem keys_shown (keyed : ∀ r n, (shown r n).key = label r) (rs : List ρ) (n : Nat) :
    ((rs.zipIdx n).map fun (r, m) => shown r m).map Endpoint.key = rs.map label := by
  have first : (Endpoint.key ∘ fun (r, m) => shown r m) = label ∘ (Prod.fst : ρ × Nat → ρ) := by
    funext i
    exact keyed i.1 i.2
  rw [List.map_map, first, ← List.map_map, List.zipIdx_map_fst]

variable [BEq ρ] [LawfulBEq ρ]

theorem eraseDups_map_label (injective : ∀ r s, label r = label s → r = s) (rs : List ρ) :
    (rs.map label).eraseDups = rs.eraseDups.map label := by
  -- the rest is filtered before it is gone through, so the induction is on the length
  induction size : rs.length using Nat.strongRecOn generalizing rs with
  | ind n ih =>
  cases rs with
  | nil => rfl
  | cons r rs =>
    have shorter : (rs.filter fun s => !s == r).length < n := by
      have bound := List.length_filter_le (fun s => !s == r) rs
      rw [List.length_cons] at size
      omega
    have others : ((rs.map label).filter fun k => !k == label r) = (rs.filter fun s => !s == r).map label := by
      rw [List.filter_map]
      congr 2
      funext s
      have same : (label s == label r) = (s == r) := by
        rw [Bool.eq_iff_iff, beq_iff_eq, beq_iff_eq]
        exact ⟨injective s r, congrArg label⟩
      rw [Function.comp_apply, same]
    rw [List.map_cons, List.eraseDups_cons, List.eraseDups_cons, others, List.map_cons,
      ih _ shorter _ rfl]

theorem find_shown (injective : ∀ r s, label r = label s → r = s) (keyed : ∀ r n, (shown r n).key = label r)
    {r : ρ} {rs : List ρ} (mem : r ∈ rs) (n : Nat) :
    ((rs.zipIdx n).map fun (s, m) => shown s m).find? (·.key == label r) = some (shown r (n + rs.idxOf r)) := by
  induction rs generalizing n with
  | nil => cases mem
  | cons s rs ih =>
    rw [List.zipIdx_cons, List.map_cons, List.find?_cons, keyed]
    by_cases same : s = r
    · subst same
      simp
    · have other : (label s == label r) = false := beq_false_of_ne fun h => same (injective s r h)
      have later : r ∈ rs := by
        rcases List.mem_cons.1 mem with rfl | later
        · exact absurd rfl same
        · exact later
      have place : n + (s :: rs).idxOf r = n + 1 + rs.idxOf r := by
        rw [List.idxOf_cons, beq_false_of_ne same, cond_false]
        omega
      rw [other, place]
      exact ih later (n + 1)

/-- What the others lack of the endpoints of a list: one for each value that stands in it, if the others
have none for it, from the place where it first stands. -/
theorem absentFrom_shown (injective : ∀ r s, label r = label s → r = s) (keyed : ∀ r n, (shown r n).key = label r)
    {others : List Endpoint} {os : List ρ} (labels : others.map Endpoint.key = os.map label) (rs : List ρ) (n : Nat) :
    absentFrom others ((rs.zipIdx n).map fun (r, m) => shown r m) =
      (rs.eraseDups.filter fun r => !os.contains r).map fun r => shown r (n + rs.idxOf r) := by
  have absent : ((fun k => !(os.map label).contains k) ∘ label) = fun r => !os.contains r := by
    funext r
    have same : (os.map label).contains (label r) = os.contains r := by
      rw [Bool.eq_iff_iff, List.contains_iff_mem, List.contains_iff_mem, List.mem_map]
      exact ⟨fun ⟨s, mem, h⟩ => injective s r h ▸ mem, fun mem => ⟨r, mem, rfl⟩⟩
    rw [Function.comp_apply, same]
  rw [absentFrom_eq, keys_shown keyed, labels, eraseDups_map_label injective, List.filter_map, absent,
    List.filterMap_map]
  have found : ∀ kept : List ρ, (∀ r ∈ kept, r ∈ rs) →
      kept.filterMap ((fun k => ((rs.zipIdx n).map fun (r, m) => shown r m).find? (·.key == k)) ∘ label) =
        kept.map fun r => shown r (n + rs.idxOf r) := by
    intro kept mem
    induction kept with
    | nil => rfl
    | cons r kept ih =>
      rw [List.filterMap_cons, Function.comp_apply, find_shown injective keyed (mem r (by simp)) n,
        ih fun s later => mem s (by simp [later]), List.map_cons]
  -- stated for any list of values so that the filter does not get in the way of the induction
  apply found
  intro r mem
  exact List.mem_eraseDups.1 (List.mem_filter.1 mem).1

end Labelled

end Drift.Check
