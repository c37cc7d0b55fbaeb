import Drift.Recognizer.Search
import Drift.Text.Trim

namespace Drift.Route

def braced (name : List Char) : List Char := '{' :: name ++ ['}']

def angleParameter : Recognizer (List Char) := do
  let _ ← Recognizer.char (· == '<')
  let _ ← Recognizer.optional do
    let _ ← Recognizer.run1 fun c => c != ':' && c != '>'
    Recognizer.char (· == ':')
  let name ← Recognizer.run1 (· != '>')
  let _ ← Recognizer.char (· == '>')
  return name

def colonParameter : Recognizer (List Char) := do
  let _ ← Recognizer.char (· == ':')
  Recognizer.run1 Text.isWord

def dropLastSlash (cs : List Char) : List Char :=
  if 1 < cs.length ∧ cs.getLast? = some '/' then cs.dropLast else cs

def normalizeChars (path : List Char) : List Char :=
  let braces := colonParameter.replace braced (angleParameter.replace braced (Text.trim path))
  '/' :: (dropLastSlash braces).dropWhile (· == '/')

def normalize (path : String) : String := String.ofList (normalizeChars path.toList)

/-- A route below the route of its class; an empty one of the two leaves the other as it is. -/
def join (base path : List Char) : List Char :=
  if base.isEmpty then path
  else if path.isEmpty then base
  else Text.trimRightWhile (· == '/') base ++ '/' :: path.dropWhile (· == '/')

@[simp] theorem join_nil_left (path : List Char) : join [] path = path := rfl

@[simp] theorem join_nil_right (base : List Char) : join base [] = base := by
  cases base <;> rfl

end Drift.Route
