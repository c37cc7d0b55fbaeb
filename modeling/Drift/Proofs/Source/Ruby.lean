import Drift.Proofs.Recognizer.Preferred
import Drift.Proofs.Text.Characters
import Drift.Source.Ruby

namespace Drift.Source.Ruby

open Recognizer

def routeVerbs : List String := ["get", "post", "put", "patch", "delete", "options", "head"]

theorem routeVerbs_apart : routeVerbs.Pairwise Apart := by decide +kernel

theorem apart_resources : ∀ verb ∈ routeVerbs, Apart "resources" verb := by decide +kernel

def routeLine (verb : String) (quote : Char) (path options : List Char) : List Char :=
  verb.toList ++ ' ' :: quote :: (path ++ quote :: options)

theorem resources_routeLine {verb : String} (mem : verb ∈ routeVerbs) (quote : Char) (path options : List Char) :
    resources.atStart (routeLine verb quote path options) = none :=
  Refuses.atStart (.bind (.text ((apart_resources verb mem).not_start _)))

theorem verbRoute_routeLine {verb : String} (mem : verb ∈ routeVerbs) {quote : Char}
    (isQuote : isPlainQuote quote = true) {path : List Char} (noQuote : ∀ c ∈ path, isPlainQuote c = false)
    (options : List Char) :
    verbRoute.atStart (routeLine verb quote path options) = some (verb.toList, path, options) := by
  have sign : Text.isBlank quote = false ∧ quote ≠ '(' := by
    simp only [isPlainQuote, Bool.or_eq_true, beq_iff_eq] at isQuote
    rcases isQuote with rfl | rfl <;> decide
  apply Prefers.atStart
  apply Prefers.after (.oneOf routeVerbs_apart mem)
  apply Prefers.after (.gap_space sign.1)
  apply Prefers.after (.skip (.optional_none (.sign sign.2)))
  apply Prefers.after (.gap_none sign.1)
  apply Prefers.after (.plainQuoted isQuote noQuote)
  apply Prefers.after .remainder
  exact Reads.pure.prefers

theorem routeVerbs_start : ∀ verb ∈ routeVerbs, verb.toList.head?.any Text.isWord = true := by decide +kernel

theorem trim_routeLine {verb : String} (mem : verb ∈ routeVerbs) (quote : Char) (path : List Char) {options : List Char}
    (filled : options ≠ []) (last : ∀ c ∈ options.getLast?, Text.isBlank c = false) :
    Text.trim (routeLine verb quote path options) = routeLine verb quote path options := by
  obtain ⟨x, head, word⟩ := (Option.any_eq_true _ _).1 (routeVerbs_start verb mem)
  obtain ⟨w, spelled⟩ := List.head?_eq_some_iff.1 head
  have shape : routeLine verb quote path options = x :: ((w ++ ' ' :: quote :: (path ++ [quote])) ++ options) := by
    simp [routeLine, spelled]
  rw [shape]
  exact Text.trim_ending (Text.isBlank_of_isWord word) filled last

theorem lineEndpoints_routeLine (file : String) (n : Nat) {verb : String} (mem : verb ∈ routeVerbs) {quote : Char}
    (isQuote : isPlainQuote quote = true) {path : List Char} (noQuote : ∀ c ∈ path, isPlainQuote c = false)
    {options : List Char} (filled : options ≠ []) (last : ∀ c ∈ options.getLast?, Text.isBlank c = false) :
    lineEndpoints file n (routeLine verb quote path options) =
      [endpoint .ruby file n verb.toList path ((routeTarget.search options).getD [])] := by
  simp only [lineEndpoints, trim_routeLine mem quote path filled last, resources_routeLine mem,
    verbRoute_routeLine mem isQuote noQuote]

end Drift.Source.Ruby
