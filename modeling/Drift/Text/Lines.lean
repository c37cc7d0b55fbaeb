import Drift.Text.Blank

namespace Drift.Text

/-- The lines of a text without their ends. A carriage return and a line feed end one line, and a
text that ends with a line break has no line after it. -/
def lines : List Char → List (List Char)
  | [] => []
  | '\r' :: '\n' :: r => [] :: lines r
  | c :: r =>
    if isLineBreak c then [] :: lines r
    else
      match lines r with
      | [] => [[c]]
      | l :: ls => (c :: l) :: ls

def numberedLines (cs : List Char) : List (Nat × List Char) :=
  (lines cs).zipIdx 1 |>.map fun (l, n) => (n, l)

def unifyNewlines : List Char → List Char
  | [] => []
  | '\r' :: '\n' :: r => '\n' :: unifyNewlines r
  | c :: r => (if c = '\r' then '\n' else c) :: unifyNewlines r

end Drift.Text
