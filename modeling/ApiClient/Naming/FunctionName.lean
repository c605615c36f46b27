import ApiClient.Document.HttpMethod
import ApiClient.Naming.TypeName

namespace ApiClient.Naming

open Text

variable [Transliteration]

/-- A reserved word gets the method appended: `deleteUsingDELETE`. -/
def avoidReserved (name : String) (method : HttpMethod) : String :=
  if isReserved name then name ++ "Using" ++ method.upperText else name

def cleanOperationId (operationId : String) : List Char :=
  (joinRuns [] (trim operationId.toList)).filter fun c => isWord c || c == '$' || isIdeograph c

def latinOperationId (operationId : String) : List Char :=
  let name := cleanOperationId operationId
  if name.any isIdeograph then lowerFirst (transliterate name) else name

def functionName? (operationId : String) (method : HttpMethod) : Option String :=
  let name := latinOperationId operationId
  if name.isEmpty then none
  else
    let name := if startsWithDigit name then '_' :: name else name
    some (avoidReserved (String.ofList name) method)

def functionNameNotices (operationId : String) : List Notice :=
  (if (cleanOperationId operationId).any isIdeograph then [.transliterated] else []) ++
    (if startsWithDigit (latinOperationId operationId) then [.digit] else [])

/-- The variable of a path segment that is a parameter as a whole. -/
def segmentParameter? : List Char → Option (List Char)
  | [] => none
  | c :: rest =>
    if c = '\x7b' ∧ rest.getLast? = some '\x7d' then some rest.dropLast
    else if c = ':' then some rest
    else none

def segmentName (segment : List Char) : List Char :=
  match segmentParameter? segment with
  | some name => 'B' :: 'y' :: upperFirst (sanitize (replaceDotChars name))
  | none => upperFirst (sanitize (replaceDotChars segment))

def pathSegments (path : String) : List (List Char) :=
  (path.toList.splitOnP (· == '/')).filter (!·.isEmpty)

def defaultFunctionName (method : HttpMethod) (path : String) : String :=
  avoidReserved
    (String.ofList (method.text.toList ++ (pathSegments path).flatMap segmentName)) method

def defaultFunctionNameNotices (path : String) : List Notice :=
  (pathSegments path).flatMap fun segment =>
    sanitizeNotices (replaceDotChars ((segmentParameter? segment).getD segment))

end ApiClient.Naming
