import Drift.Json.KeyOrder
import Drift.Json.Text
import Drift.Value.Text

namespace Drift.Json

/-- Why a value has no JSON text: its keys cannot be sorted together, a key is no scalar of JSON, the value
contains itself, a number has too many digits, or collections are nested too deeply. -/
inductive Failure where
  | unsortedKeys | badKey | circular | hugeNumber | tooDeep
  deriving DecidableEq, Repr

def Failure.isOfKeys : Failure → Bool
  | unsortedKeys => true
  | badKey => true
  | _ => false

def floatChars (x : Float) : List Char := (Decimal.Layout.json.text x).toList

def intChars (n : Int) : Except Failure (List Char) :=
  match Value.intChars? n with
  | some cs => .ok cs
  | none => .error .hugeNumber

def keyChars : Value → Except Failure (List Char)
  | .str s => .ok (quoted .ascii s)
  | .int n => (intChars n).map fun cs => '"' :: cs ++ ['"']
  | .bool b => .ok (quoted .ascii (if b then "true" else "false"))
  | .float x => .ok ('"' :: floatChars x ++ ['"'])
  | .nan _ => .ok (quoted .ascii Decimal.Layout.json.nan)
  | .null => .ok (quoted .ascii "null")
  | _ => .error .badKey

def scalarChars : Value → Except Failure (List Char)
  | .null => .ok "null".toList
  | .bool b => .ok (if b then "true" else "false").toList
  | .int n => intChars n
  | .float x => .ok (floatChars x)
  | .nan _ => .ok Decimal.Layout.json.nan.toList
  | .str s => .ok (quoted .ascii s)
  | v => .ok (quoted .ascii (String.ofList (v.chars?.getD [])))

def itemsChars (items : List (List Char)) : List Char := '[' :: List.intercalate ", ".toList items ++ [']']

def entriesChars (entries : List (List Char)) : List Char :=
  '\x7b' :: List.intercalate ", ".toList entries ++ ['\x7d']

/-- The text of a value inside of the collections `path`; `sorted` sorts the entries of every mapping. The
first number limits the depth. -/
def dataChars (sorted : Bool) (s : Store) : Nat → List Nat → Value → Except Failure (List Char)
  | 0, _, _ => .error .tooDeep
  | depth + 1, path, v =>
    match v with
    | .held id =>
      if path.contains id then .error .circular
      else
        let inner := dataChars sorted s depth (id :: path)
        match s.at? v with
        | some (.list items) => itemsChars <$> items.mapM inner
        | some (.pair a b) => itemsChars <$> [a, b].mapM inner
        | some (.map entries) => do
          let ordered ←
            if sorted then
              match sortEntries? entries with
              | some ordered => pure ordered
              | none => throw .unsortedKeys
            else pure entries
          entriesChars <$> ordered.mapM fun (k, w) => do
            let name ← keyChars k
            return name ++ ": ".toList ++ (← inner w)
        | _ =>
          match s.text? v with
          | some cs => .ok (quoted .ascii (String.ofList cs))
          | none => .error .hugeNumber
    | v => scalarChars v

def dataText (s : Store) (v : Value) : Except Failure String :=
  match dataChars true s s.room.data [] v with
  | .ok cs => .ok (String.ofList cs)
  | .error e => if e.isOfKeys then (dataChars false s s.room.data [] v).map String.ofList else .error e

end Drift.Json
