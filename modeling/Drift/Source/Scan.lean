import Drift.Endpoint
import Drift.Signature
import Drift.Text.Lines

namespace Drift.Source

def scan {σ β : Type} (step : σ → Nat → List Char → σ × List β) : σ → List (Nat × List Char) → List β
  | _, [] => []
  | s, (n, l) :: r => (step s n l).2 ++ scan step (step s n l).1 r

def scanLines {σ β : Type} (step : σ → Nat → List Char → σ × List β) (s : σ) (text : List Char) : List β :=
  scan step s (Text.numberedLines text)

def eachLine {β : Type} (f : Nat → List Char → List β) (text : List Char) : List β :=
  (Text.numberedLines text).flatMap fun (n, l) => f n l

def endpoint (language : Language) (file : String) (line : Nat) (method path handler : List Char) :
    Endpoint where
  method := String.ofList (Text.upper method)
  path := String.ofList path
  handler := String.ofList handler
  file
  line
  language := some language

def parameter (name type : List Char) : Signature.Parameter := ⟨String.ofList name, String.ofList type⟩

def result (type name : List Char) : Signature.Result := ⟨String.ofList type, String.ofList name⟩

def knownMethods (ws : List (List Char)) : List (List Char) :=
  (ws.map Text.upper).filter fun w => httpMethods.contains (String.ofList w)

end Drift.Source
