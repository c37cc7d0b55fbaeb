import Drift.Recognizer.Source

namespace Drift.Terminal

inductive Colour where
  | red | green | yellow | cyan
  deriving DecidableEq, Repr

def Colour.code : Colour → String
  | red => "31"
  | green => "32"
  | yellow => "33"
  | cyan => "36"

def bold (c : Colour) (s : String) : String := s!"\x1b[{c.code}m\x1b[1m{s}\x1b[0m"

open Recognizer in
def control : Recognizer Unit := do
  sign '\x1b'
  sign '['
  skip (run fun c => '0' ≤ c && c ≤ '?')
  skip (run fun c => ' ' ≤ c && c ≤ '/')
  skip (char fun c => '@' ≤ c && c ≤ '~')

def plain (s : String) : String := String.ofList (control.replace (fun _ => []) s.toList)

end Drift.Terminal
