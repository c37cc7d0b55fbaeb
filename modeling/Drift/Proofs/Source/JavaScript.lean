import Drift.Proofs.Recognizer.Preferred
import Drift.Source.JavaScript

namespace Drift.Source.JavaScript

open Recognizer

theorem receivers_apart : receivers.Pairwise Apart := by decide +kernel

theorem verbs_apart : verbs.Pairwise Apart := by decide +kernel

theorem receivers_words : ∀ r ∈ receivers, r.toList ≠ [] ∧ ∀ x ∈ r.toList, Text.isWord x = true := by
  have checked : receivers.all (fun r => !r.toList.isEmpty && r.toList.all Text.isWord) = true := by decide +kernel
  simpa using checked

def routeCall (receiver verb : String) (quote : Char) (path args : List Char) : List Char :=
  receiver.toList ++ '.' :: (verb.toList ++ '(' :: quote :: '/' :: (path ++ quote :: args))

theorem route_routeCall {receiver verb : String} (known : receiver ∈ receivers) (mem : verb ∈ verbs) {quote : Char}
    (isQuoted : isQuote quote = true) {path : List Char} (noQuote : ∀ c ∈ path, isQuote c = false) {x : Char}
    {args : List Char} (noGap : Text.isBlank x = false) :
    route.search (routeCall receiver verb quote path (x :: args)) = some (verb.toList, '/' :: path, x :: args) := by
  obtain ⟨nonempty, word⟩ := receivers_words receiver known
  have notBlank : Text.isBlank quote = false := by
    simp only [isQuote, Bool.or_eq_true, beq_iff_eq] at isQuoted
    rcases isQuoted with (rfl | rfl) | rfl <;> decide
  apply Prefers.search
  apply Prefers.after (.wordEdge_start nonempty word)
  apply Prefers.after (.skip (.oneOf receivers_apart known))
  apply Prefers.after .sign
  apply Prefers.after (.oneOf verbs_apart mem)
  apply Prefers.after (.gap_none (by decide))
  apply Prefers.after .sign
  apply Prefers.after (.gap_none notBlank)
  apply Prefers.after (.char isQuoted)
  apply Prefers.after .sign
  apply Prefers.after (.run (w := path) (by simpa using noQuote) (by simpa using isQuoted))
  apply Prefers.after .sign
  apply Prefers.after (.gap_none noGap)
  apply Prefers.after .remainder
  exact Reads.pure.prefers

theorem lineEndpoints_routeCall (file : String) (n : Nat) {receiver verb : String} (known : receiver ∈ receivers)
    (mem : verb ∈ verbs) {quote : Char} (isQuoted : isQuote quote = true) {path : List Char}
    (noQuote : ∀ c ∈ path, isQuote c = false) {x : Char} {args : List Char} (noGap : Text.isBlank x = false) :
    lineEndpoints file n (routeCall receiver verb quote path (x :: args)) =
      [endpoint .javascript file n verb.toList ('/' :: path)
        (handlerName (Text.trimLeftWhile (· == ',') (x :: args)))] := by
  rw [lineEndpoints, route_routeCall known mem isQuoted noQuote noGap]

end Drift.Source.JavaScript
