import ApiClient.Schema.Basic

namespace ApiClient

inductive Form where
  | null
  | enumeration
  | number
  | date
  | string
  | boolean
  | array
  | union
  | intersection
  | object
  | any
deriving DecidableEq, Repr

namespace Schema

def numberNames : List String :=
  ["integer", "long", "float", "double", "number", "int", "int32", "int64"]

def dateNames : List String :=
  ["Date", "date", "dateTime", "date-time", "datetime"]

def stringNames : List String :=
  ["string", "email", "password", "url", "byte", "binary"]

def isNamed (s : Schema) (names : List String) : Bool :=
  s.typeName?.any names.contains || s.format.any names.contains

def form (s : Schema) : Form :=
  if s.typeName? = some "null" then .null
  else if s.enum.isSome then .enumeration
  else if s.isNamed numberNames then .number
  else if s.isNamed dateNames then .date
  else if s.isNamed stringNames then .string
  else if s.typeName? = some "boolean" then .boolean
  else if s.typeName? = some "array" then .array
  else if !s.oneOf.isEmpty || !s.anyOf.isEmpty then .union
  else if !s.allOf.isEmpty then .intersection
  else if s.typeName? = some "object" || s.properties.isSome then .object
  else .any

end Schema

end ApiClient
