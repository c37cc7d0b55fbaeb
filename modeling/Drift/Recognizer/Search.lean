import Drift.Recognizer.Basic

namespace Drift.Recognizer

variable {α : Type}

def searchFrom (r : Recognizer α) : Option Char → List Char → Option (α × Cursor)
  | b, [] => r.first ⟨b, []⟩
  | b, x :: s => r.first ⟨b, x :: s⟩ <|> searchFrom r (some x) s

def search (r : Recognizer α) (cs : List Char) : Option α := (searchFrom r none cs).map (·.1)

/-- A text cut into what `r` reads and the characters between. A reading is taken at the first place
where there is one, and the next is looked for behind it; the number counts the characters of a
reading that are still to be passed. -/
def piecesFrom (r : Recognizer α) : Option Char → Nat → List Char → List (Char ⊕ α)
  | _, _, [] => []
  | _, k + 1, x :: s => piecesFrom r (some x) k s
  | b, 0, x :: s =>
    match r.first ⟨b, x :: s⟩ with
    | some (a, c) => .inr a :: piecesFrom r (some x) (s.length - c.rest.length) s
    | none => .inl x :: piecesFrom r (some x) 0 s

def pieces (r : Recognizer α) (cs : List Char) : List (Char ⊕ α) := piecesFrom r none 0 cs

def findAll (r : Recognizer α) (cs : List Char) : List α := (r.pieces cs).filterMap Sum.getRight?

def replace (r : Recognizer α) (f : α → List Char) (cs : List Char) : List Char :=
  (r.pieces cs).flatMap (Sum.elim ([·]) f)

end Drift.Recognizer
