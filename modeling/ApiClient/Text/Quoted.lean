namespace ApiClient.Text

def escape (quote : Char) : List Char → List Char
  | [] => []
  | c :: rest =>
    if c = '\\' ∨ c = quote then '\\' :: c :: escape quote rest else c :: escape quote rest

def quoted (quote : Char) (s : String) : String :=
  String.ofList (quote :: escape quote s.toList ++ [quote])

def quoteLiteral (s : String) : String :=
  quoted '"' s

def quoteKey (s : String) : String :=
  quoted '\'' s

end ApiClient.Text
