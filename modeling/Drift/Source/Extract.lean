import Drift.Source.CSharp
import Drift.Source.Go
import Drift.Source.Java
import Drift.Source.JavaScript
import Drift.Source.Python
import Drift.Source.Ruby

namespace Drift.Language

open Source

def endpoints (l : Language) (file : String) (text : List Char) : List Endpoint :=
  match l with
  | .go => Go.endpoints file text
  | .python => Python.endpoints file text
  | .javascript => JavaScript.endpoints file text
  | .java => Java.endpoints file text
  | .csharp => CSharp.endpoints file text
  | .ruby => Ruby.endpoints file text

def signatures (l : Language) (file : String) (text : List Char) :
    Except CSharp.UnknownVisibility (List Signature) :=
  match l with
  | .go => .ok (Go.signatures file text)
  | .python => .ok (Python.signatures file text)
  | .javascript => .ok (JavaScript.signatures file text)
  | .java => .ok (Java.signatures file text)
  | .csharp => CSharp.signatures file text
  | .ruby => .ok (Ruby.signatures file text)

end Drift.Language
