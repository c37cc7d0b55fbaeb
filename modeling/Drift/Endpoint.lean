import Drift.Language

namespace Drift

def httpMethods : List String := ["GET", "POST", "PUT", "DELETE", "PATCH", "OPTIONS", "HEAD"]

structure Endpoint.Parameter where
  name : String
  location : String := "query"
  required : Bool := false
  type : String := "string"
  description : String := ""
  deriving DecidableEq, Repr

structure Endpoint where
  method : String
  path : String
  handler : String := ""
  description : String := ""
  file : String := ""
  line : Int := 0
  language : Option Language := none
  parameters : List Endpoint.Parameter := []
  requestBody : Option String := none
  responseBody : Option String := none
  deriving DecidableEq, Repr

end Drift
