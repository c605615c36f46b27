import ApiClient.Document.Basic

namespace ApiClient

/-- What a prefix may depend on; the path is the one before prefixing. -/
structure PrefixContext where
  path : String
  method : HttpMethod
  tag : String
  functionName : String

structure Overrides where
  tags : Endpoint → Option (List String)
  functionName : Endpoint → Option String
  typeName : Endpoint → String → Option String
  className : String → Option String
  fileName : String → Option String
  typeExpression : Option SchemaNode → String → String → Option String
  options : Endpoint → Option (List (String × Json))
  apiPrefix : PrefixContext → Option String

namespace Overrides

def none : Overrides where
  tags _ := .none
  functionName _ := .none
  typeName _ _ := .none
  className _ := .none
  fileName _ := .none
  typeExpression _ _ _ := .none
  options _ := .none
  apiPrefix _ := .none

end Overrides

end ApiClient
