import Drift.Recognizer.Source
import Drift.Source.Nesting

namespace Drift.Source

open Recognizer

def isHandlerChar (c : Char) : Bool := isDollarWord c || c == '.' || c == ':'

def handlerArgument : Recognizer (List Char) := do
  let s ← name isDollarLetter isHandlerChar
  gap
  skip (run (· == ')'))
  gap
  skip (optional (char fun c => c == ';' || c == ','))
  gap
  atEnd
  return s

/-- The last argument that is a plain name, so that what stands before the handler is passed over.
An inline function has no name. -/
def handlerName (args : List Char) : List Char :=
  ((splitParams plainBrackets args).reverse.findSome? handlerArgument.atStart).getD []

end Drift.Source
