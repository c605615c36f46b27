namespace ApiClient.Naming

def reservedWords : List String := [
  "break", "case", "catch", "class", "const", "continue", "debugger", "default", "delete", "do",
  "else", "enum", "export", "extends", "false", "finally", "for", "function", "if", "import", "in",
  "instanceof", "new", "null", "return", "super", "switch", "this", "throw", "true", "try",
  "typeof", "var", "void", "while", "with", "yield", "let", "static", "implements", "interface",
  "package", "private", "protected", "public", "await", "arguments", "eval", "any", "boolean",
  "number", "string", "symbol", "never", "unknown"]

def isReserved (name : String) : Bool :=
  reservedWords.contains name

end ApiClient.Naming
