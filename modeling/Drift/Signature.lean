namespace Drift

inductive Visibility where
  | pub | priv | prot | package
  deriving DecidableEq, Repr

namespace Visibility

def all : List Visibility := [.pub, .priv, .prot, .package]

def name : Visibility → String
  | pub => "public"
  | priv => "private"
  | prot => "protected"
  | package => "package"

def ofName? (s : String) : Option Visibility := all.find? (·.name == s)

theorem ofName?_name (v : Visibility) : ofName? v.name = some v := by cases v <;> decide

end Visibility

structure Signature.Parameter where
  name : String := ""
  type : String := ""
  deriving DecidableEq, Repr

structure Signature.Result where
  type : String := ""
  name : String := ""
  deriving DecidableEq, Repr

structure Signature where
  name : String
  parameters : List Signature.Parameter := []
  results : List Signature.Result := []
  file : String := ""
  line : Int := 0
  visibility : Visibility := .pub
  deriving DecidableEq, Repr

/-- A function that a module is expected to have. An empty language or file pattern, an empty name
or type and an absent visibility expect nothing. -/
structure Expectation where
  name : String
  language : String := ""
  filePattern : String := ""
  parameters : List Signature.Parameter := []
  results : List Signature.Result := []
  visibility : Option Visibility := none
  deriving DecidableEq, Repr

structure Descriptor where
  name : String := ""
  description : String := ""
  expectedFiles : List String := []
  expectedDirs : List String := []
  patterns : List String := []
  expectedFunctions : List Expectation := []
  deriving DecidableEq, Repr

end Drift
