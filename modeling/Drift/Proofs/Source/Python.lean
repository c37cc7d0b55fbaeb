import Drift.Proofs.Recognizer.Preferred
import Drift.Proofs.Route.Segments
import Drift.Source.Python

namespace Drift.Source.Python

open Recognizer

theorem decoratorVerbs_apart : decoratorVerbs.Pairwise Apart := by decide +kernel

def decoratorLine (receiver : List Char) (verb : String) (quote : Char) (path args : List Char) : List Char :=
  '@' :: (receiver ++ '.' :: (verb.toList ++ '(' :: quote :: (path ++ quote :: args)))

theorem decorator_decoratorLine (receiver : Text.Run Text.isWord) {verb : String} (mem : verb ∈ decoratorVerbs)
    {quote : Char} (isQuote : isPlainQuote quote = true) {path : List Char}
    (noQuote : ∀ c ∈ path, isPlainQuote c = false) (args : List Char) :
    decorator.atStart (decoratorLine receiver.text verb quote path args) = some (verb.toList, path, args) := by
  have sign : Text.isBlank quote = false ∧ (quote == 'r' || quote == 'b' || quote == 'u' || quote == 'f') = false := by
    simp only [isPlainQuote, Bool.or_eq_true, beq_iff_eq] at isQuote
    rcases isQuote with rfl | rfl <;> decide
  obtain ⟨w, nonempty, word⟩ := receiver
  obtain ⟨x, w, rfl⟩ := List.exists_cons_of_ne_nil nonempty
  have first : Text.isWord x = true := word x (by simp)
  apply Prefers.atStart
  apply Prefers.after .sign
  apply Prefers.after (.gap_none (Text.isBlank_of_isWord first))
  apply Prefers.bind (.skip (.fewest_none (by simpa using first)))
  apply Prefers.after (.skip (.run1_append nonempty word (by simp; decide)))
  apply Prefers.after .sign
  apply Prefers.after (.oneOf decoratorVerbs_apart mem)
  apply Prefers.after (.gap_none (by decide))
  apply Prefers.after .sign
  apply Prefers.after (.gap_none sign.1)
  apply Prefers.after (.skip (.optional_none (.char sign.2)))
  apply Prefers.after (.plainQuoted isQuote noQuote)
  apply Prefers.after .remainder
  exact Reads.pure.prefers

theorem trim_decoratorLine (receiver : List Char) (verb : String) (quote : Char) (path : List Char) {args : List Char}
    (filled : args ≠ []) (last : ∀ c ∈ args.getLast?, Text.isBlank c = false) :
    Text.trim (decoratorLine receiver verb quote path args) = decoratorLine receiver verb quote path args := by
  have shape : decoratorLine receiver verb quote path args =
      '@' :: ((receiver ++ '.' :: (verb.toList ++ '(' :: quote :: (path ++ [quote]))) ++ args) := by
    simp [decoratorLine]
  rw [shape]
  exact Text.trim_ending (by decide) filled last

theorem of_decoratorLine (receiver : Text.Run Text.isWord) {verb : String} (mem : verb ∈ decoratorVerbs)
    {quote : Char} (isQuote : isPlainQuote quote = true) {path : List Char}
    (noQuote : ∀ c ∈ path, isPlainQuote c = false) (args : List Char) :
    Line.of (decoratorLine receiver.text verb quote path args) = .routed (decoratorMethods verb.toList args) path := by
  rw [Line.of, decorator_decoratorLine receiver mem isQuote noQuote]

def definitionLine (name rest : List Char) : List Char := "def ".toList ++ (name ++ rest)

theorem definitionName_definitionLine (name : Text.Run Text.isWord) {rest : List Char}
    (stop : ∀ c ∈ rest.head?, Text.isWord c = false) :
    definitionName.atStart (definitionLine name.text rest) = some name.text := by
  obtain ⟨w, nonempty, word⟩ := name
  obtain ⟨x, w, rfl⟩ := List.exists_cons_of_ne_nil nonempty
  apply Prefers.atStart
  apply Prefers.after (.skip (.optional_none (.bind (.text (by simp [definitionLine])))))
  have notBlank : Text.isBlank x = false := Text.isBlank_of_isWord (word x (by simp))
  apply Prefers.after (.bind (.word (t := ' ' :: (x :: w ++ rest))) (.gap1_space notBlank))
  exact (Reads.run1_append nonempty word stop).prefers

theorem of_definitionLine (name : Text.Run Text.isWord) {rest : List Char}
    (stop : ∀ c ∈ rest.head?, Text.isWord c = false) :
    ∃ route, Line.of (definitionLine name.text rest) = .code (some name.text) route := by
  have none : decorator.atStart (definitionLine name.text rest) = none :=
    Refuses.atStart (.bind (.sign (by decide)))
  exact ⟨_, by rw [Line.of, none, definitionName_definitionLine name stop]⟩

end Drift.Source.Python
