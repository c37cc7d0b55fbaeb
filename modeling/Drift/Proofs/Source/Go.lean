import Drift.Proofs.Recognizer.Preferred
import Drift.Proofs.Route.Segments
import Drift.Source.Go

namespace Drift.Source.Go

open Recognizer

theorem routeVerbs_apart : routeVerbs.Pairwise Apart := by decide +kernel

def routeCall (receiver : List Char) (verb : String) (path args : List Char) : List Char :=
  receiver ++ '.' :: (verb.toList ++ '(' :: '"' :: '/' :: (path ++ '"' :: args))

theorem frameworkRoute_routeCall (receiver : Text.Run Text.isWord) {verb : String} (mem : verb ∈ routeVerbs)
    {path : List Char} (noQuote : '"' ∉ path) (args : List Char) :
    frameworkRoute.search (routeCall receiver.text verb path args) = some (verb.toList, '/' :: path, args) := by
  have stop : ∀ x ∈ ('.' :: (verb.toList ++ '(' :: '"' :: '/' :: (path ++ '"' :: args))).head?,
      Text.isWord x = false := by
    simp only [List.head?_cons, Option.mem_some_iff, forall_eq']
    decide
  apply Prefers.search
  apply Prefers.after (.wordEdge_start receiver.nonempty receiver.fits)
  apply Prefers.after (.skip (.run1_append receiver.nonempty receiver.fits stop))
  apply Prefers.after .sign
  apply Prefers.after (.oneOf routeVerbs_apart mem)
  apply Prefers.after (.gap_none (by decide))
  apply Prefers.after .sign
  apply Prefers.after (.gap_none (by decide))
  apply Prefers.after .sign
  apply Prefers.after .sign
  apply Prefers.after (.run_until noQuote)
  apply Prefers.after .sign
  apply Prefers.after .remainder
  exact Reads.pure.prefers

theorem lineEndpoints_routeCall (file : String) (n : Nat) (receiver : Text.Run Text.isWord) {verb : String}
    (mem : verb ∈ routeVerbs) {path : List Char} (noQuote : '"' ∉ path) (args : List Char) :
    lineEndpoints file n (routeCall receiver.text verb path args) =
      [endpoint .go file n verb.toList ('/' :: path) (handlerName (callArgs args))] := by
  rw [lineEndpoints, frameworkRoute_routeCall receiver mem noQuote]

/-- The arguments end at the first closing parenthesis, if none is opened. -/
theorem callArgs_closed {args : List Char} (plain : ∀ c ∈ args, c ≠ '(' ∧ c ≠ ')') (t : List Char) :
    callArgs (args ++ ')' :: t) = args := by
  rw [callArgs]
  induction args with
  | nil => rfl
  | cons c args ih =>
    obtain ⟨⟨opening, closing⟩, rest⟩ := List.forall_mem_cons.1 plain
    rw [List.cons_append, callArgsFrom, if_neg opening, if_neg closing, ih rest]

end Drift.Source.Go
