import Drift.Text.Codes
import Drift.Text.Number
import Drift.Text.Printable

namespace Drift.Text

def quotedChar (q c : Char) : List Char :=
  if c = q ∨ c = '\\' then ['\\', c]
  else if c = '\t' then "\\t".toList
  else if c = '\n' then "\\n".toList
  else if c = '\r' then "\\r".toList
  else if isPrintable c then [c]
  else if c.toNat < 0x100 then "\\x".toList ++ hexChars 2 c.toNat
  else if c.toNat < 0x10000 then "\\u".toList ++ hexChars 4 c.toNat
  else "\\U".toList ++ hexChars 8 c.toNat

def quoteFor (cs : List Char) : Char := if cs.contains '\'' && !cs.contains '"' then '"' else '\''

def quotedCode (q : Char) (n : Nat) : List Char :=
  if isSurrogate n then "\\u".toList ++ hexChars 4 n else quotedChar q (Char.ofNat n)

def quoted (cs : List Char) : List Char :=
  let q := quoteFor cs
  q :: (codes cs).flatMap (quotedCode q) ++ [q]

def printed? (s : String) : Option String :=
  if isBroken s then none else some (String.ofList ((codes s.toList).map Char.ofNat))

def escaped (s : String) : String := String.ofList ((codes s.toList).flatMap fun n =>
  if isSurrogate n then "\\u".toList ++ hexChars 4 n else [Char.ofNat n])

end Drift.Text
