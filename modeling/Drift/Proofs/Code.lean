import Drift.Code
import Drift.Proofs.Outcome

namespace Drift.Code

open Files

def total (done : List (Language × Nat)) : Nat := done.foldr (fun i n => i.2 + n) 0

theorem total_countOne (l : Language) (done : List (Language × Nat)) : total (countOne l done) = total done + 1 := by
  induction done with
  | nil => rfl
  | cons i done ih =>
    obtain ⟨m, n⟩ := i
    rw [countOne]
    by_cases same : m = l
    · rw [if_pos same]
      simp only [total, List.foldr_cons]
      omega
    · rw [if_neg same]
      simp only [total, List.foldr_cons] at ih ⊢
      omega

theorem total_counts (ls : List Language) : total (counts ls) = ls.length := by
  have later : ∀ done, total (ls.foldl (fun done l => countOne l done) done) = total done + ls.length := by
    induction ls with
    | nil => simp
    | cons l ls ih =>
      intro done
      rw [List.foldl_cons, ih, total_countOne, List.length_cons]
      omega
  rw [counts, later]
  simp [total]

/-- The languages of the files add up to the files that a detector accepts. -/
theorem total_languages {t : Tree} {detectors : List Language} {root : Path} {ignored : List String}
    {found : List (Language × Nat)} (h : languages t detectors root ignored = .ok found) :
    ∃ paths, files t root ignored = .ok paths ∧
      total found = paths.countP fun p => detectors.any (·.accepts p.text) := by
  rw [languages] at h
  obtain ⟨located, read, rfl⟩ := ok_of_map h
  rw [sources] at read
  obtain ⟨paths, walked, rfl⟩ := ok_of_map read
  refine ⟨paths, walked, ?_⟩
  rw [total_counts, List.length_map, List.length_filterMap_eq_countP]
  congr 1
  funext p
  rw [Option.isSome_map, Language.among?, Bool.eq_iff_iff, List.find?_isSome, List.any_eq_true]

end Drift.Code
