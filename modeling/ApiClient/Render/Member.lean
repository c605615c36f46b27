namespace ApiClient.Render

def optionalMark (nullable required : Bool) : String :=
  if required || nullable then "" else "?"

def nullUnion (nullable required : Bool) : String :=
  if nullable && !required then " | null" else ""

def memberLine (nullable required : Bool) (name type : String) : String :=
  "\n    '" ++ name ++ "'" ++ optionalMark nullable required ++ ": " ++ type ++
    nullUnion nullable required ++ ";"

def commentLine (text : String) : String :=
  if text.isEmpty then "" else "\n    /** " ++ text ++ " */"

end ApiClient.Render
