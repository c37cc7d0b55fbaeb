import Drift.Text.Ranges

namespace Drift.Text

/-- The characters that count as white space: the separators of Unicode, the ASCII controls that
move the cursor, the four information separators and the next-line control. -/
def blankRanges : List (Nat × Nat) :=
  [(9, 13), (28, 32), (133, 133), (160, 160), (5760, 5760), (8192, 8202), (8232, 8233),
   (8239, 8239), (8287, 8287), (12288, 12288)]

def isBlank (c : Char) : Bool := inRanges blankRanges c.toNat

def lineBreakRanges : List (Nat × Nat) :=
  [(10, 13), (28, 30), (133, 133), (8232, 8233)]

def isLineBreak (c : Char) : Bool := inRanges lineBreakRanges c.toNat

theorem isBlank_of_isLineBreak {c : Char} (h : isLineBreak c = true) : isBlank c = true := by
  obtain ⟨r, hr, lo, hi⟩ := inRanges_iff.1 h
  simp only [lineBreakRanges, List.mem_cons, List.not_mem_nil, or_false] at hr
  refine inRanges_iff.2 ?_
  rcases hr with rfl | rfl | rfl | rfl
  · exact ⟨(9, 13), by simp [blankRanges], by simp_all; omega, by simp_all⟩
  · exact ⟨(28, 32), by simp [blankRanges], by simp_all, by simp_all; omega⟩
  · exact ⟨(133, 133), by simp [blankRanges], by simp_all, by simp_all⟩
  · exact ⟨(8232, 8233), by simp [blankRanges], by simp_all, by simp_all⟩

end Drift.Text
