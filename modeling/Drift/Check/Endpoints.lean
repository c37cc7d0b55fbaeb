import Drift.Endpoint
import Drift.Files.Path
import Drift.Finding
import Drift.Route.Path
import Drift.Text.Case
import Drift.Text.Number

namespace Drift

def Endpoint.key (e : Endpoint) : String :=
  String.ofList (Text.upper e.method.toList) ++ " " ++ Route.normalize e.path

namespace Check

def firstByKey {α : Type} (key : α → String) : List String → List α → List α
  | _, [] => []
  | seen, x :: xs =>
    if seen.contains (key x) then firstByKey key seen xs
    else x :: firstByKey key (key x :: seen) xs

def absentFrom (others endpoints : List Endpoint) : List Endpoint :=
  let keys := others.map Endpoint.key
  (firstByKey Endpoint.key [] endpoints).filter fun e => !keys.contains e.key

def missing (e : Endpoint) : Finding where
  kind := .missingEndpoint
  subject := "api"
  message := s!"API endpoint {e.method} {e.path} is documented but not implemented"
  severity := .error
  remedy := s!"Implement handler for {e.method} {e.path} or remove from API documentation"

def location (file : String) (line : Int) : String := Files.baseName file ++ ":" ++ Text.intText line

def undocumented (e : Endpoint) : Finding where
  kind := .undocumentedEndpoint
  subject := "api"
  message := s!"API endpoint {e.method} {e.path} is implemented but not documented " ++
    "(found in " ++ location e.file e.line ++ ")"
  severity := .warning
  remedy := s!"Add {e.method} {e.path} to API documentation (OpenAPI/ARCHITECTURE.md)"

def endpoints (documented implemented : List Endpoint) : List Finding :=
  (absentFrom implemented documented).map missing ++ (absentFrom documented implemented).map undocumented

end Check

end Drift
