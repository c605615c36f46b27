namespace ApiClient

inductive Failure where
  | unresolved (reference : String)
  | circular (reference : String)
  | operation (tag : String) (method path : String) (cause : Failure)
  | invalidDocument
  | documentJson
  | documentYaml
  | documentFile
  /-- What a reference points at cannot be read as what is wanted there. -/
  | malformed (reference : String)
  | configFile
  | configText
  | yaml
  | json
  | render (reason : String)
deriving Repr

def Failure.message : Failure → String
  | unresolved reference => "Document integrity error: cannot resolve reference " ++ reference
  | circular reference =>
    "Document integrity error: cannot resolve reference " ++ reference ++
      " (circular reference chain)"
  | operation tag method path cause =>
    "Synthesis error in tag '" ++ tag ++ "' for " ++ method ++ " " ++ path ++ ": " ++ cause.message
  | invalidDocument => "Parse error: Invalid OpenAPI document"
  | documentJson => "Parse error: Failed to parse OpenAPI JSON"
  | documentYaml => "Parse error: Failed to parse OpenAPI YAML"
  | documentFile => "Parse error: Failed to read OpenAPI file"
  | malformed reference => "Parse error: Referenced node " ++ reference ++ " is malformed"
  | configFile => "Config error: Failed to read config file"
  | configText => "Config error: Failed to parse config"
  | yaml => "YAML error"
  | json => "JSON error"
  | render reason => "Render error: " ++ reason

end ApiClient
