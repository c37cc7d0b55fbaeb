import Drift.Proofs.Recognizer.Preferred
import Drift.Proofs.Text.Characters
import Drift.Source.Java

namespace Drift.Source.Java

open Recognizer

def mappingKinds : List String := ["Get", "Post", "Put", "Delete", "Patch", "Request"]

theorem mappingKinds_apart : mappingKinds.Pairwise Apart := by decide +kernel

def mappingLine (kind : String) (path args : List Char) : List Char :=
  '@' :: (kind.toList ++ ("Mapping".toList ++ '(' :: '"' :: (path ++ '"' :: args)))

theorem mapping_arguments {kind : String} (mem : kind ∈ mappingKinds) (args : List Char) :
    mapping.atStart ('@' :: (kind.toList ++ ("Mapping".toList ++ '(' :: args))) = some (kind, '(' :: args) := by
  apply Prefers.atStart
  apply Prefers.after .sign
  apply Prefers.after (.oneOf mappingKinds_apart mem)
  apply Prefers.after .word
  apply Prefers.after (.wordEdge (by simp; decide))
  apply Prefers.after .remainder
  exact Reads.pure.prefers

theorem mapping_mappingLine {kind : String} (mem : kind ∈ mappingKinds) (path args : List Char) :
    mapping.atStart (mappingLine kind path args) = some (kind, '(' :: '"' :: (path ++ '"' :: args)) :=
  mapping_arguments mem _

theorem mappingPath_quoted {path : List Char} (noQuote : '"' ∉ path) (args : List Char) :
    mappingPath.atStart ('(' :: '"' :: (path ++ '"' :: args)) = some path := by
  have noName : (do skip (oneOf ["value", "path"]); gap; sign '='; gap : Recognizer Unit).Refuses
      ⟨some '(', '"' :: (path ++ '"' :: args)⟩ := by
    refine .bind (.skip (.oneOf fun w mem => ?_))
    rcases List.mem_cons.1 mem with rfl | mem
    · simp
    · cases List.mem_singleton.1 mem
      simp
  apply Prefers.atStart
  apply Prefers.after (.gap_none (by decide))
  apply Prefers.after .sign
  apply Prefers.after (.gap_none (by decide))
  apply Prefers.after (.skip (.optional_none noName))
  apply Prefers.after (.skip (.optional_none (.sign (by decide))))
  apply Prefers.after (.gap_none (by decide))
  exact (Reads.doubleQuoted noQuote).prefers

theorem trim_mappingLine (kind : String) (path : List Char) {args : List Char} (filled : args ≠ [])
    (last : ∀ c ∈ args.getLast?, Text.isBlank c = false) :
    Text.trim (mappingLine kind path args) = mappingLine kind path args := by
  have shape : mappingLine kind path args =
      '@' :: ((kind.toList ++ ("Mapping".toList ++ '(' :: '"' :: (path ++ ['"']))) ++ args) := by
    simp [mappingLine]
  rw [shape]
  exact Text.trim_ending (by decide) filled last

theorem of_mappingLine {kind : String} (mem : kind ∈ mappingKinds) {path : List Char} (noQuote : '"' ∉ path)
    (args : List Char) : Line.of (mappingLine kind path args) =
      .mapping (mappingMethods kind ('(' :: '"' :: (path ++ '"' :: args))) path := by
  rw [Line.of, mapping_mappingLine mem]
  simp only [mappingPath_quoted noQuote, Option.getD_some]

theorem of_methodLine {line : List Char} {m : Method} (plain : mapping.atStart line = none)
    (noType : typeDeclaration.accepts line = false) (reads : method? line = some m) :
    Line.of line = .method m.name := by
  simp [Line.of, plain, noType, reads]

theorem typedName_concat {ws : List (List Char)} (filled : ws ≠ []) (n : List Char) :
    typedName (ws ++ [n]) = some (parameter n (Text.joinWith [' '] ws)) := by
  obtain ⟨w, rest, back⟩ := List.exists_cons_of_ne_nil (List.reverse_ne_nil_iff.2 filled)
  have front : ws = (w :: rest).reverse := by rw [← back, List.reverse_reverse]
  rw [front, typedName]
  simp

theorem typedName_eq_some {ws : List (List Char)} {n t : List Char} (named : typedName ws = some (parameter n t)) :
    ∃ front, t = Text.joinWith [' '] front ∧ ∀ w ∈ front, w ∈ ws := by
  rcases List.eq_nil_or_concat ws with rfl | ⟨front, m, rfl⟩
  · cases named
  · rw [List.concat_eq_append] at named ⊢
    by_cases filled : front = []
    · subst filled
      cases named
    · rw [typedName_concat filled, Option.some.injEq, parameter, parameter, Signature.Parameter.mk.injEq] at named
      exact ⟨front, (String.ofList_injective named.2).symm, fun w mem => List.mem_append_left _ mem⟩

end Drift.Source.Java
