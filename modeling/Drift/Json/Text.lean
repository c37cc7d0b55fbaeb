import Drift.Text.Codes
import Drift.Text.Number

namespace Drift.Json

inductive Style where
  /-- Printable ASCII only. -/
  | ascii
  /-- All but the control characters below the space. -/
  | unicode
  deriving DecidableEq, Repr

def unit (n : Nat) : List Char := '\\' :: 'u' :: Text.hexChars 4 n

def escapedCode (n : Nat) : List Char :=
  if n < 0x10000 then unit n
  else unit (0xD800 + (n - 0x10000) / 0x400) ++ unit (0xDC00 + (n - 0x10000) % 0x400)

def shortEscapes : List (Nat × Char) :=
  [(34, '"'), (92, '\\'), (8, 'b'), (12, 'f'), (10, 'n'), (13, 'r'), (9, 't')]

def isPlain (style : Style) (n : Nat) : Bool :=
  match style with
  | .ascii => 32 ≤ n && n < 127
  | .unicode => 32 ≤ n

def codeChars (style : Style) (n : Nat) : List Char :=
  match shortEscapes.lookup n with
  | some c => ['\\', c]
  | none => if isPlain style n then Text.heldCode n else escapedCode n

def quotedCodes (style : Style) (codes : List Nat) : List Char :=
  '"' :: codes.flatMap (codeChars style) ++ ['"']

def quoted (style : Style) (s : String) : List Char := quotedCodes style (Text.codes s.toList)

end Drift.Json
