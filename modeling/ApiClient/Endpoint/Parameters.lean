import ApiClient.Document.Reference
import ApiClient.Endpoint.Path
import ApiClient.Typing.Expression

namespace ApiClient

structure ClassifiedParams where
  groups : ParamGroups
  hasHeader : Bool

namespace Endpoint

variable [Text.Transliteration]

def declaredIn (d : Document) (nodes : List (RefOr Parameter)) :
    Except Failure (List Parameter) := do
  let params ← nodes.mapM d.resolveParameter
  return params.filterMap id

/-- Add the shared parameters whose name and location do not occur earlier. -/
def addShared : List Parameter → List Parameter → List Parameter
  | declared, [] => declared
  | declared, p :: rest =>
    if declared.any fun q => q.name == p.name && q.location == p.location then
      addShared declared rest
    else addShared (declared ++ [p]) rest

def parameterType (t : Typing) (p : Parameter) : String :=
  match p.schema, p.type with
  | some node, _ => t.nodeType node
  | none, some type => t.nodeType (.schema (Schema.ofType type))
  | none, none => t.nodeType SchemaNode.default

def isObjectParameter (d : Document) (p : Parameter) : Except Failure Bool :=
  if p.type = some "object" then .ok true
  else
    match p.schema with
    | none => .ok false
    | some node => do
      let resolved ← d.resolveSchema node
      return resolved.schema?.any Schema.isObjectType

def toParam (d : Document) (t : Typing) (p : Parameter) : Except Failure Param := do
  let isObject ← isObjectParameter d p
  return {
    name := p.name
    location := p.location
    description := p.description
    required := p.required
    type := parameterType t p
    isObject
    isComplexType := false
    aliasName := none }

def impliedParam (name : String) : Param :=
  { name, location := "path", description := none, required := true, type := "string",
    isObject := false, isComplexType := false, aliasName := none }

def addImplied : List Param → List String → List Param
  | params, [] => params
  | params, name :: rest =>
    if params.any fun p => p.name == name then addImplied params rest
    else addImplied (params ++ [impliedParam name]) rest

def isGrouped (p : Parameter) : Bool :=
  p.location == "query" || p.location == "path" || p.location == "cookie"

def namedParameters (d : Document) (e : Endpoint) : Except Failure (List Parameter) := do
  let own ← declaredIn d e.operation.parameters
  let shared ← declaredIn d e.pathParameters
  return (addShared own shared).filter fun p => !Text.isBlankText p.name

def params (d : Document) (t : Typing) (e : Endpoint) : Except Failure ClassifiedParams := do
  let named ← namedParameters d e
  let grouped ← (named.filter isGrouped).mapM (toParam d t)
  let located (location : String) := grouped.filter fun p => p.location == location
  return {
    groups := {
      query := located "query"
      path := addImplied (located "path") (Path.tokenNames e.path)
      cookie := located "cookie" }
    hasHeader := named.any fun p => p.location == "header" }

end Endpoint

end ApiClient
