import ApiClient.Text.Blank

namespace ApiClient

inductive EnumStyle where
  | stringLiteral
  | enum
deriving DecidableEq, Repr

def EnumStyle.text : EnumStyle → String
  | stringLiteral => "string-literal"
  | enum => "enum"

def EnumStyle.ofText? (s : String) : Option EnumStyle :=
  [stringLiteral, enum].find? (·.text == s)

/-- `scope` qualifies the named types; `dataFields` are the keys of response envelopes, tried in
order. -/
structure Config where
  scope : String
  enumStyle : EnumStyle
  nullable : Bool
  isCamelCase : Bool
  dataFields : List String
  apiPrefix : Option String
  requestLibPath : String
deriving DecidableEq, Repr

namespace Config

def default : Config :=
  ⟨"API", .stringLiteral, false, true, [], none, "@umijs/max"⟩

def literalApiPrefix? (c : Config) : Option String :=
  (c.apiPrefix.map Text.trimText).filter fun p => !p.isEmpty

end Config

end ApiClient
