import Drift.Document.Outline
import Drift.Proofs.Recognizer.Preferred
import Drift.Proofs.Text.Characters
import Drift.Proofs.Text.Joining

namespace Drift.Document

open Recognizer

theorem httpMethods_apart : httpMethods.Pairwise Apart := by decide +kernel

theorem httpMethods_words : ∀ m ∈ httpMethods, m.toList ≠ [] ∧ ∀ x ∈ m.toList, Text.isWord x = true := by
  have checked : httpMethods.all (fun m => !m.toList.isEmpty && m.toList.all Text.isWord) = true := by decide +kernel
  simpa using checked

def isHeadingChar (c : Char) : Bool := !Text.isBlank c && c != '\x60'

theorem isHeadingChar_iff {c : Char} : isHeadingChar c = true ↔ Text.isBlank c = false ∧ c ≠ '\x60' := by
  simp [isHeadingChar]

structure Heading where
  method : String
  known : method ∈ httpMethods
  path : Text.Run isHeadingChar

def Heading.line (h : Heading) : List Char := "###".toList ++ ' ' :: (h.method.toList ++ ' ' :: h.path.text)

theorem endpointHeading_line (h : Heading) : endpointHeading.atStart h.line = some (h.method, h.path.text) := by
  obtain ⟨nonempty, word⟩ := httpMethods_words h.method h.known
  have named : ∀ x ∈ (h.method.toList ++ ' ' :: h.path.text).head?, Text.isBlank x = false := by
    obtain ⟨x, w, spelled⟩ := List.exists_cons_of_ne_nil nonempty
    rw [spelled] at word ⊢
    simpa using Text.isBlank_of_isWord (word x (by simp))
  obtain ⟨y, p, written⟩ := List.exists_cons_of_ne_nil h.path.nonempty
  have solid := isHeadingChar_iff.1 (h.path.fits y (by simp [written]))
  have whole : (run1 fun c => !Text.isBlank c && c != '\x60').Reads ⟨some ' ', h.path.text ++ []⟩ h.path.text
      ⟨h.path.text.getLast? <|> some ' ', []⟩ := .run1_append h.path.nonempty h.path.fits (by simp)
  rw [List.append_nil, written] at whole
  rw [Heading.line, written]
  apply Prefers.atStart
  apply Prefers.after .word
  apply Prefers.after (.skip (.run1 (w := []) (by decide) (by simp) (by rwa [← written])))
  apply Prefers.after (.oneOf httpMethods_apart h.known)
  apply Prefers.after (.gap1_space solid.1)
  apply Prefers.after (.skip (.optional_none (.sign solid.2)))
  apply Prefers.after whole
  exact Reads.pure.prefers

theorem of_line (h : Heading) : Line.of h.line = .endpoint h.method h.path.text := by
  rw [Line.of, endpointHeading_line h]

theorem trim_line (h : Heading) : Text.trim h.line = h.line := by
  have shape : h.line = '#' :: (("## ".toList ++ (h.method.toList ++ [' '])) ++ h.path.text) := by
    simp [Heading.line]
  rw [shape]
  apply Text.trim_ending (by decide) h.path.nonempty
  intro x last
  exact (isHeadingChar_iff.1 (h.path.fits x (List.mem_of_mem_getLast? last))).1

def Heading.endpoint (source : String) (h : Heading) (n : Nat) : Endpoint where
  method := h.method
  path := String.ofList h.path.text
  file := source
  line := n

theorem step_line (source : String) (current : Option Endpoint) (n : Nat) (h : Heading) :
    step source { current } n h.line = ({ current := some (h.endpoint source n) }, (current.map finish).toList) := by
  have noFence : isFence h.line = false := rfl
  rw [step, trim_line]
  simp only [noFence, of_line, readLine]
  rfl

/-- Headings alone: each ends the endpoint before it, and the end of the text ends the last. -/
theorem endpointsFrom_headings (source : String) (current : Option Endpoint) (hs : List Heading) (n : Nat) :
    endpointsFrom source { current } (((hs.map Heading.line).zipIdx n).map fun (l, m) => (m, l)) =
      (current.map finish).toList ++ (hs.zipIdx n).map fun (h, m) => finish (h.endpoint source m) := by
  induction hs generalizing current n with
  | nil => simp [endpointsFrom]
  | cons h hs ih =>
    rw [List.map_cons, List.zipIdx_cons, List.map_cons, endpointsFrom, step_line, ih]
    simp

theorem line_whole (h : Heading) : ∀ c ∈ h.line, Text.isLineBreak c = false := by
  intro c mem
  obtain ⟨nonempty, word⟩ := httpMethods_words h.method h.known
  rw [Heading.line, List.mem_append, List.mem_cons, List.mem_append, List.mem_cons] at mem
  rcases mem with mark | rfl | name | rfl | mem
  · have same : c = '#' := by simpa using mark
    subst same
    decide
  · decide
  · exact Text.isLineBreak_of_isWord (word c name)
  · decide
  · exact Text.isLineBreak_of_not_blank (isHeadingChar_iff.1 (h.path.fits c mem)).1

theorem outlineEndpoints_headings (source : String) (hs : List Heading) :
    outlineEndpoints source (Text.unlines (hs.map Heading.line)) =
      (hs.zipIdx 1).map fun (h, n) => finish (h.endpoint source n) := by
  have whole : ∀ l ∈ hs.map Heading.line, ∀ c ∈ l, Text.isLineBreak c = false := by
    intro l mem
    obtain ⟨h, -, rfl⟩ := List.mem_map.1 mem
    exact line_whole h
  rw [outlineEndpoints, Text.numberedLines_unlines whole]
  exact endpointsFrom_headings source none hs 1

end Drift.Document
