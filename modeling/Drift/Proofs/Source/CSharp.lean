import Drift.Proofs.Recognizer.Preferred
import Drift.Proofs.Recognizer.Readings
import Drift.Proofs.Text.Characters
import Drift.Source.CSharp

namespace Drift.Text

theorem replace_absent {x : Char} {old new cs : List Char} (absent : x ∉ cs) : replace (x :: old) new cs = cs := by
  rw [replace, List.isEmpty_cons, if_neg Bool.false_ne_true]
  induction cs with
  | nil => rfl
  | cons c cs ih =>
    have other : x ≠ c := fun same => absent (by simp [same])
    rw [replaceFrom, List.isPrefixOf_cons_cons, beq_false_of_ne other, Bool.false_and, if_neg Bool.false_ne_true,
      ih fun mem => absent (List.mem_cons_of_mem c mem)]

end Drift.Text

namespace Drift.Source.CSharp

open Recognizer

def attributeVerbs : List String := ["Get", "Post", "Put", "Delete", "Patch", "Head", "Options"]

theorem attributeVerbs_apart : attributeVerbs.Pairwise Apart := by decide +kernel

def attributeLine (verb : String) (path args : List Char) : List Char :=
  '[' :: ("Http".toList ++ (verb.toList ++ '(' :: '"' :: (path ++ '"' :: args)))

set_option synthInstance.maxSize 256 in
theorem minimalRoute_needs : minimalRoute.Needs '.' := by
  apply Needs.after
  intro _
  apply Needs.after
  intro _
  exact Needs.bind (.word (by decide))

theorem template_quoted {path args : List Char} {b : Option Char} (noQuote : '"' ∉ path) :
    template.Prefers ⟨b, '(' :: '"' :: (path ++ '"' :: args)⟩ path ⟨some '"', args⟩ := by
  apply Prefers.after (.gap_none (by decide))
  apply Prefers.after .sign
  apply Prefers.after (.gap_none (by decide))
  apply Prefers.after (.skip (.optional_none (.bind (.text (by simp)))))
  exact (Reads.doubleQuoted noQuote).prefers

theorem attributeVerbs_ends : ∀ v ∈ attributeVerbs, v.toList.getLast?.any Text.isWord = true := by decide +kernel

theorem httpAttribute_attributeLine {verb : String} (mem : verb ∈ attributeVerbs) {path : List Char}
    (noQuote : '"' ∉ path) (args : List Char) :
    httpAttribute.search (attributeLine verb path args) = some (verb.toList, some path) := by
  obtain ⟨x, last, word⟩ := (Option.any_eq_true _ _).1 (attributeVerbs_ends verb mem)
  apply Prefers.search
  apply Prefers.after .sign
  apply Prefers.after (.gap_none (by decide))
  apply Prefers.after .word
  apply Prefers.after (.oneOf attributeVerbs_apart mem)
  apply Prefers.after (.wordEdge (by simp [last, word]; decide))
  apply Prefers.bind (.optional_some (template_quoted noQuote))
  exact Reads.pure.prefers

theorem trim_attributeLine (verb : String) (path : List Char) {args : List Char} (filled : args ≠ [])
    (last : ∀ c ∈ args.getLast?, Text.isBlank c = false) :
    Text.trim (attributeLine verb path args) = attributeLine verb path args := by
  have shape : attributeLine verb path args =
      '[' :: (("Http".toList ++ (verb.toList ++ '(' :: '"' :: (path ++ ['"']))) ++ args) := by
    simp [attributeLine]
  rw [shape]
  exact Text.trim_ending (by decide) filled last

theorem of_attributeLine {verb : String} (mem : verb ∈ attributeVerbs) {path args : List Char} (some : path ≠ [])
    (noQuote : '"' ∉ path) (noDot : '.' ∉ attributeLine verb path args) :
    Line.of (attributeLine verb path args) =
      .attribute (String.ofList (Text.upper verb.toList) :: []) (.some path) := by
  -- an earlier form is looked for anywhere in the line, and holds a dot wherever it stands
  have noMinimal : minimalRoute.search (attributeLine verb path args) = none := minimalRoute_needs.search_eq_none noDot
  have filled : path.isEmpty = false := by simpa using some
  simp [Line.of, noMinimal, attribute?, httpAttribute_attributeLine mem noQuote, filled]

theorem of_methodLine {line : List Char} {m : Java.Method} (noMinimal : minimalRoute.search line = none)
    (noHttp : httpAttribute.search line = none) (noRoute : routeAttribute.search line = none)
    (noType : typeDeclaration.atStart line = none) (reads : method? line = some m) :
    Line.of line = .method m.name := by
  simp [Line.of, attribute?, noMinimal, noHttp, noRoute, noType, reads]

theorem methodPath_rooted (base : List Char) {path : List Char} (noToken : '[' ∉ path) (fn : List Char) :
    methodPath base ('/' :: path) fn = '/' :: path := by
  have token : "[action]".toList = '[' :: "action]".toList := rfl
  have kept : Text.replace "[action]".toList (Text.lower fn) ('/' :: path) = '/' :: path := by
    rw [token]
    exact Text.replace_absent (by simpa using noToken)
  have rooted : "~/".toList.isPrefixOf ('/' :: path) = false := rfl
  rw [methodPath, kept]
  simp only [rooted, List.head?_cons, ↓reduceIte, Bool.false_eq_true]

def minimalVerbs : List String := ["Get", "Post", "Put", "Delete", "Patch"]

theorem minimalVerbs_apart : minimalVerbs.Pairwise Apart := by decide +kernel

def mapCall (receiver : List Char) (verb : String) (path args : List Char) : List Char :=
  receiver ++ (".Map".toList ++ (verb.toList ++ '(' :: '"' :: (path ++ '"' :: args)))

theorem of_mapCall (receiver : Text.Run Text.isWord) {verb : String} (mem : verb ∈ minimalVerbs) {path : List Char}
    (noQuote : '"' ∉ path) (args : List Char) :
    Line.of (mapCall receiver.text verb path args) = .minimal verb.toList path args := by
  have reading : minimalRoute.search (mapCall receiver.text verb path args) = some (verb.toList, path, args) := by
    apply Prefers.search
    apply Prefers.after (.wordEdge_start receiver.nonempty receiver.fits)
    apply Prefers.after (.skip (.run1_append receiver.nonempty receiver.fits (by rintro _ ⟨⟩; decide)))
    apply Prefers.after .word
    apply Prefers.after (.oneOf minimalVerbs_apart mem)
    apply Prefers.after (.gap_none (by decide))
    apply Prefers.after .sign
    apply Prefers.after (.gap_none (by decide))
    apply Prefers.after (.doubleQuoted noQuote)
    apply Prefers.after .remainder
    exact Reads.pure.prefers
  rw [Line.of, reading]

end Drift.Source.CSharp
