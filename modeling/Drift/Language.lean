import Drift.Text.Case
import Drift.Text.Trim

namespace Drift

inductive Language where
  | go | python | javascript | java | csharp | ruby
  deriving DecidableEq, Repr

namespace Language

def all : List Language := [.go, .python, .javascript, .java, .csharp, .ruby]

def name : Language → String
  | go => "go"
  | python => "python"
  | javascript => "javascript"
  | java => "java"
  | csharp => "csharp"
  | ruby => "ruby"

def aliases : List (String × Language) :=
  [("golang", go), ("py", python), ("js", javascript), ("ts", javascript),
   ("typescript", javascript), ("c#", csharp), ("cs", csharp), ("rb", ruby)]

/-- The language of a name or a common alias, whatever its case and the blanks around it. -/
def ofName? (s : String) : Option Language :=
  let key := String.ofList (Text.lower (Text.trim s.toList))
  match aliases.lookup key with
  | some l => some l
  | none => all.find? (·.name == key)

def extensions : Language → List String
  | go => [".go"]
  | python => [".py"]
  | javascript => [".js", ".jsx", ".ts", ".tsx", ".mjs", ".cjs"]
  | java => [".java"]
  | csharp => [".cs"]
  | ruby => [".rb"]

def accepts (l : Language) (path : String) : Bool :=
  let key := Text.lower path.toList
  l.extensions.any fun e => e.toList.isSuffixOf key

def among? (candidates : List Language) (path : String) : Option Language :=
  candidates.find? (·.accepts path)

def ofPath? (path : String) : Option Language := among? all path

end Language

end Drift
