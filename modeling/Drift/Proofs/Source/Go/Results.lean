import Drift.Proofs.Source.Enclosed
import Drift.Proofs.Text.Characters
import Drift.Source.Go

namespace Drift.Source.Go

def readResults (t : List Char) : List Signature.Result :=
  if t.isEmpty then []
  else if t.head? = some '(' ∧ findClosing t 0 ['('] [')'] = some (t.length - 1) then
    (fields (t.drop 1).dropLast).map fun (fieldName, type) => result type fieldName
  else [result t []]

theorem results_eq (text : List Char) : results text = readResults (resultText text) := rfl

theorem enclosed_iff {t : List Char} :
    t.head? = some '(' ∧ findClosing t 0 ['('] [')'] = some (t.length - 1) ↔
      ∃ inside, t = '(' :: (inside ++ [')']) ∧ Passes 1 1 inside := by
  have first : ∀ r, findClosing ('(' :: r) 0 ['('] [')'] = (closingParen 1 r).map (· + 1) := by
    intro r
    have step : closingFrom ['('] [')'] 0 ('(' :: r) = (closingParen 1 r).map (· + 1) := rfl
    rw [findClosing, List.drop_zero, step, Option.map_map]
    congr 1
    funext i
    exact Nat.zero_add (i + 1)
  constructor
  · rintro ⟨head, closed⟩
    obtain ⟨r, rfl⟩ := List.head?_eq_some_iff.1 head
    rw [first, Option.map_eq_some_iff] at closed
    obtain ⟨i, found, place⟩ := closed
    obtain ⟨inside, v, rfl, rfl, passes⟩ := exists_of_closingParen found
    obtain rfl : v = [] := by simpa using place
    exact ⟨inside, rfl, passes⟩
  · rintro ⟨inside, rfl, passes⟩
    refine ⟨rfl, ?_⟩
    rw [first, passes.closingParen_eq]
    simp

theorem readResults_enclosed {inside : List Char} (passes : Passes 1 1 inside) :
    readResults ('(' :: (inside ++ [')'])) = (fields inside).map fun (fieldName, type) => result type fieldName := by
  rw [readResults, if_pos (enclosed_iff.2 ⟨inside, rfl, passes⟩)]
  simp

theorem readResults_single {t : List Char} (filled : t ≠ [])
    (single : ∀ inside, t = '(' :: (inside ++ [')']) → ¬ Passes 1 1 inside) : readResults t = [result t []] := by
  have other : ¬ (t.head? = some '(' ∧ findClosing t 0 ['('] [')'] = some (t.length - 1)) := by
    rw [enclosed_iff]
    rintro ⟨inside, shape, passes⟩
    exact single inside shape passes
  rw [readResults, if_neg (by simpa using filled), if_neg other]

def upTo (t : List Char) : List Char := if Text.trim t = [] then [] else Text.trimLeftWhile Text.isBlank t ++ [' ']

theorem head_upTo (t : List Char) : ∀ c ∈ (upTo t).head?, Text.isBlank c = false := by
  rw [upTo]
  split
  · simp
  · rename_i filled
    rw [Text.trim_eq_nil_iff] at filled
    obtain ⟨x, w, left⟩ := List.exists_cons_of_ne_nil filled
    have head : ∀ c ∈ (Text.trimLeftWhile Text.isBlank t).head?, Text.isBlank c = false := Text.head_trimLeft
    rw [left] at head ⊢
    exact head

theorem trim_upTo (t : List Char) : Text.trim (upTo t) = Text.trim t := by
  rw [upTo]
  split
  · rename_i empty
    rw [empty, Text.trim_nil]
  · rw [Text.trim_append_blank Text.isBlank_space, Text.trim_trimLeft]

theorem trim_body (t b : List Char) :
    Text.trim (t ++ ' ' :: '\x7b' :: b) = upTo t ++ '\x7b' :: Text.trimRightWhile Text.isBlank b := by
  rw [← Text.trim_trimLeft, Text.trimLeft_append_cons (by decide) (by decide), ← upTo,
    Text.trim_append_cons (head_upTo t) (by decide)]

/-- Up to a brace that the line ends with, all of it is the text of the results. -/
theorem resultText_open (t : List Char) : resultText (t ++ " \x7b".toList) = Text.trim t := by
  have trimmed : Text.trim (t ++ " \x7b".toList) = upTo t ++ ['\x7b'] := trim_body t []
  rw [resultText, trimmed]
  simp [trim_upTo]

end Drift.Source.Go
