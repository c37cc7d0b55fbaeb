import Drift.Text.Blank

namespace Drift.Text

def trimLeftWhile (p : Char → Bool) (cs : List Char) : List Char := cs.dropWhile p

def trimRightWhile (p : Char → Bool) (cs : List Char) : List Char := (cs.reverse.dropWhile p).reverse

def trimWhile (p : Char → Bool) (cs : List Char) : List Char := trimRightWhile p (trimLeftWhile p cs)

def trim (cs : List Char) : List Char := trimWhile isBlank cs

@[simp] theorem trim_nil : trim [] = [] := rfl

theorem trimLeftWhile_of_not {p : Char → Bool} {c : Char} (h : p c = false) (cs : List Char) :
    trimLeftWhile p (c :: cs) = c :: cs := by
  simp [trimLeftWhile, h]

def dropHead (head cs : List Char) : List Char :=
  if head.isPrefixOf cs then cs.drop head.length else cs

def dropTail (tail cs : List Char) : List Char :=
  if tail.isSuffixOf cs && !tail.isEmpty then cs.take (cs.length - tail.length) else cs

end Drift.Text
