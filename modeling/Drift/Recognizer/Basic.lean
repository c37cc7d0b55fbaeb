import Drift.Text.Blank
import Drift.Text.Word

namespace Drift

structure Cursor where
  before : Option Char
  rest : List Char

def Cursor.start (cs : List Char) : Cursor := ⟨none, cs⟩

def Recognizer (α : Type) : Type 1 := (ρ : Type) → Cursor → (α → Cursor → Option ρ) → Option ρ

namespace Recognizer

variable {α β ρ : Type}

def fail : Recognizer α := fun _ _ _ => none

instance : Monad Recognizer where
  pure a := fun _ c k => k a c
  bind r f := fun ρ c k => r ρ c fun a c' => f a ρ c' k

theorem bind_apply (r : Recognizer α) (f : α → Recognizer β) (c : Cursor) (k : β → Cursor → Option ρ) :
    (r >>= f) ρ c k = r ρ c fun a c' => f a ρ c' k := rfl

def orElse (r : Recognizer α) (s : Unit → Recognizer α) : Recognizer α := fun ρ c k =>
  match r ρ c k with
  | some x => some x
  | none => s () ρ c k

instance : OrElse (Recognizer α) := ⟨orElse⟩

theorem orElse_apply (r s : Recognizer α) (c : Cursor) (k : α → Cursor → Option ρ) :
    (r <|> s) ρ c k = (r ρ c k <|> s ρ c k) := by
  change (match r ρ c k with | some x => some x | none => s ρ c k) = _
  cases r ρ c k <;> rfl

def char (p : Char → Bool) : Recognizer Char := fun _ c k =>
  match c.rest with
  | x :: r => if p x then k x ⟨some x, r⟩ else none
  | [] => none

def text : List Char → Recognizer Unit
  | [] => pure ()
  | x :: w => do let _ ← char (· == x); text w

def word (w : String) : Recognizer Unit := text w.toList

def oneOf : List String → Recognizer String
  | [] => fail
  | w :: ws => (do word w; return w) <|> oneOf ws

def runsFrom (p : Char → Bool) : Option Char → List Char → (List Char → Cursor → Option ρ) → Option ρ
  | b, [], k => k [] ⟨b, []⟩
  | b, x :: r, k =>
    if p x then
      match runsFrom p (some x) r fun t c => k (x :: t) c with
      | some a => some a
      | none => k [] ⟨b, x :: r⟩
    else k [] ⟨b, x :: r⟩

def many (p : Char → Bool) : Recognizer (List Char) := fun _ c k => runsFrom p c.before c.rest k

/-- The longest run of characters with the property `p`. It does for `many p` where what follows starts
with no such character, for then no shorter run could be followed. -/
def run (p : Char → Bool) : Recognizer (List Char) := fun _ c k =>
  let t := c.rest.takeWhile p
  k t ⟨t.getLast? <|> c.before, c.rest.dropWhile p⟩

/-- Runs of characters with the property `p` that end where `stop` holds of what comes next, the shortest
first. -/
def shortRunsFrom (p : Char → Bool) (stop : Option Char → Bool) :
    Option Char → List Char → (List Char → Cursor → Option ρ) → Option ρ
  | b, [], k => if stop none then k [] ⟨b, []⟩ else none
  | b, x :: r, k =>
    match if stop (some x) then k [] ⟨b, x :: r⟩ else none with
    | some a => some a
    | none => if p x then shortRunsFrom p stop (some x) r fun t c => k (x :: t) c else none

/-- As few characters with the property `p` as possible, up to a place where `stop` holds of what comes
next. What follows has to start there; a `stop` that holds too often does no harm. -/
def fewest (p : Char → Bool) (stop : Option Char → Bool) : Recognizer (List Char) := fun _ c k =>
  shortRunsFrom p stop c.before c.rest k

def many1 (p : Char → Bool) : Recognizer (List Char) := do
  let x ← char p
  let r ← many p
  return x :: r

def run1 (p : Char → Bool) : Recognizer (List Char) := do
  let x ← char p
  let r ← run p
  return x :: r

def fewest1 (p : Char → Bool) (stop : Option Char → Bool) : Recognizer (List Char) := do
  let x ← char p
  let r ← fewest p stop
  return x :: r

def upTo (stop : Char) : Recognizer (List Char) := do
  let s ← fewest (fun _ => true) (· == some stop)
  let _ ← char (· == stop)
  return s

def optional (r : Recognizer α) : Recognizer (Option α) := (some <$> r) <|> pure none

def skip (r : Recognizer α) : Recognizer Unit := do let _ ← r; return ()

def repeatedOver (r : Recognizer Unit) : List Char → Recognizer Unit
  | [] => pure ()
  | _ :: text => (do r; repeatedOver r text) <|> pure ()

/-- Any number of pieces, as many as possible. Each of them has to read a character at least, so a text
holds no more of them than characters. -/
def repeated (r : Recognizer Unit) : Recognizer Unit := fun ρ c k => repeatedOver r c.rest ρ c k

def spanned (r : Recognizer Unit) : Recognizer (List Char) := fun ρ c k =>
  r ρ c fun _ c' => k (c.rest.take (c.rest.length - c'.rest.length)) c'

def blanks : Recognizer Unit := skip (many Text.isBlank)

def blanks1 : Recognizer Unit := skip (many1 Text.isBlank)

def gap : Recognizer Unit := skip (run Text.isBlank)

def gap1 : Recognizer Unit := skip (run1 Text.isBlank)

def wordEdge : Recognizer Unit := fun _ c k =>
  if c.before.any Text.isWord != c.rest.head?.any Text.isWord then k () c else none

def notAfter (p : Char → Bool) : Recognizer Unit := fun _ c k => if c.before.any p then none else k () c

def ahead (p : Char → Bool) : Recognizer Unit := fun _ c k => if c.rest.head?.any p then k () c else none

def atEnd : Recognizer Unit := fun _ c k => if c.rest.isEmpty then k () c else none

def remainder : Recognizer (List Char) := fun _ c k => k c.rest ⟨c.rest.getLast? <|> c.before, []⟩

def first (r : Recognizer α) (c : Cursor) : Option (α × Cursor) := r (α × Cursor) c fun a c' => some (a, c')

def notAhead (r : Recognizer α) : Recognizer Unit := fun _ c k => if (r.first c).isNone then k () c else none

def atStart (r : Recognizer α) (cs : List Char) : Option α :=
  (r.first (.start cs)).map (·.1)

def accepts (r : Recognizer α) (cs : List Char) : Bool := (r.atStart cs).isSome

end Recognizer

end Drift
