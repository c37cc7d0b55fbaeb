import Drift.Json.Text

namespace Drift

inductive Json where
  | null
  | bool (b : Bool)
  | int (n : Int)
  | str (s : String)
  | arr (items : List Json)
  | obj (fields : List (String × Json))

namespace Json

def newline (depth : Nat) : List Char := '\n' :: List.replicate (2 * depth) ' '

mutual

/-- The lines of a value; those after the first are indented to `depth`. An empty collection takes no
further line. -/
def chars (style : Style) (depth : Nat) : Json → List Char
  | null => "null".toList
  | bool b => (if b then "true" else "false").toList
  | int n => Text.intChars n
  | str s => quoted style s
  | arr items =>
    if items.isEmpty then "[]".toList
    else '[' :: itemChars style (depth + 1) items ++ newline depth ++ [']']
  | obj fields =>
    if fields.isEmpty then "\x7b\x7d".toList
    else '\x7b' :: fieldChars style (depth + 1) fields ++ newline depth ++ ['\x7d']

def itemChars (style : Style) (depth : Nat) : List Json → List Char
  | [] => []
  | j :: js =>
    newline depth ++ chars style depth j ++ (if js.isEmpty then [] else [',']) ++ itemChars style depth js

def fieldChars (style : Style) (depth : Nat) : List (String × Json) → List Char
  | [] => []
  | (name, j) :: fs =>
    newline depth ++ quoted style name ++ ": ".toList ++ chars style depth j ++
      (if fs.isEmpty then [] else [',']) ++ fieldChars style depth fs

end

def text (style : Style) (j : Json) : String := String.ofList (chars style 0 j)

end Json

end Drift
