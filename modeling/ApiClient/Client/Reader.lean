import ApiClient.Client.Basic
import ApiClient.Json.Record

namespace ApiClient

open Json

def Param.ofJson? (v : Json) : Option Param := do
  let field ← v.fields? ["name", "location", "description", "required", "type", "isObject",
    "isComplexType", "alias"]
  let name ← present? string? (field "name")
  let location ← present? string? (field "location")
  let description ← optional? string? (field "description")
  let required ← present? bool? (field "required")
  let type ← present? string? (field "type")
  let isObject ← present? bool? (field "isObject")
  let isComplexType ← present? bool? (field "isComplexType")
  let aliasName ← optional? string? (field "alias")
  some { name, location, description, required, type, isObject, isComplexType, aliasName }

def ParamGroups.ofJson? (v : Json) : Option ParamGroups := do
  let field ← v.fields? ["query", "path", "cookie"]
  let query ← orDefault? [] (listOf? Param.ofJson?) (field "query")
  let path ← orDefault? [] (listOf? Param.ofJson?) (field "path")
  let cookie ← orDefault? [] (listOf? Param.ofJson?) (field "cookie")
  some { query, path, cookie }

def BodyProperty.ofJson? (v : Json) : Option BodyProperty := do
  let field ← v.fields? ["key", "type", "required", "description"]
  let key ← present? string? (field "key")
  let type ← present? string? (field "type")
  let required ← present? bool? (field "required")
  let description ← optional? string? (field "description")
  some { key, type, required, description }

def BodyShape.ofEntries? (entries : List (String × Json)) : Option BodyShape :=
  match entries.lookup "shape" with
  | some (.string "properties") => properties?
  | some (.number (.integer 0)) => properties?
  | some (.string "whole") => whole?
  | some (.number (.integer 1)) => whole?
  | _ => none
where
  properties? : Option BodyShape :=
    (present? (listOf? BodyProperty.ofJson?) (entries.lookup "properties")).map .properties
  whole? : Option BodyShape :=
    (present? string? (entries.lookup "typeExpr")).map .whole

def Body.ofJson? : Json → Option Body
  | .object entries => do
    let mediaType ← present? string? (entries.lookup "mediaType")
    let required ← present? bool? (entries.lookup "required")
    let shape ← BodyShape.ofEntries? entries
    some { mediaType, required, shape }
  | _ => none

def FileField.ofJson? (v : Json) : Option FileField := do
  let field ← v.fields? ["title", "multiple"]
  let title ← present? string? (field "title")
  let multiple ← present? bool? (field "multiple")
  some { title, multiple }

def ResponseType.ofJson? (v : Json) : Option ResponseType := do
  let field ← v.fields? ["mediaType", "type"]
  let mediaType ← present? string? (field "mediaType")
  let type ← present? string? (field "type")
  some { mediaType, type }

def entries? : Json → Option (List (String × Json))
  | .object entries => some entries
  | _ => none

def Call.ofJson? (v : Json) : Option Call := do
  let field ← v.fields? ["functionName", "typeName", "method", "rawPath", "path", "pathInComment",
    "summary", "description", "params", "hasParams", "body", "file", "response", "hasHeader",
    "hasFormData", "hasPathVariables", "hasApiPrefix", "options", "vendorVersion"]
  let functionName ← present? string? (field "functionName")
  let typeName ← present? string? (field "typeName")
  let method ← present? string? (field "method")
  let rawPath ← present? string? (field "rawPath")
  let path ← present? string? (field "path")
  let pathInComment ← present? string? (field "pathInComment")
  let summary ← optional? string? (field "summary")
  let description ← present? string? (field "description")
  let params ← present? ParamGroups.ofJson? (field "params")
  let hasParams ← present? bool? (field "hasParams")
  let body ← optional? Body.ofJson? (field "body")
  let file ← optional? (listOf? FileField.ofJson?) (field "file")
  let response ← present? ResponseType.ofJson? (field "response")
  let hasHeader ← present? bool? (field "hasHeader")
  let hasFormData ← present? bool? (field "hasFormData")
  let hasPathVariables ← present? bool? (field "hasPathVariables")
  let hasApiPrefix ← present? bool? (field "hasApiPrefix")
  let options ← present? ApiClient.entries? (field "options")
  let vendorVersion ← optional? string? (field "vendorVersion")
  some { functionName, typeName, method, rawPath, path, pathInComment, summary, description, params,
         hasParams, body, file, response, hasHeader, hasFormData, hasPathVariables, hasApiPrefix,
         options, vendorVersion }

def ServiceUnit.ofJson? (v : Json) : Option ServiceUnit := do
  let field ← v.fields? ["tag", "fileName", "className", "instanceName", "operations"]
  let tag ← present? string? (field "tag")
  let fileName ← present? string? (field "fileName")
  let className ← present? string? (field "className")
  let instanceName ← present? string? (field "instanceName")
  let operations ← present? (listOf? Call.ofJson?) (field "operations")
  some { tag, fileName, className, instanceName, operations }

def Controller.ofJson? (v : Json) : Option Controller := do
  let field ← v.fields? ["fileName", "controllerName"]
  let fileName ← present? string? (field "fileName")
  let controllerName ← present? string? (field "controllerName")
  some { fileName, controllerName }

def Property.ofJson? (v : Json) : Option Property := do
  let field ← v.fields? ["name", "type", "description", "required", "format"]
  let name ← present? string? (field "name")
  let type ← present? string? (field "type")
  let description ← present? string? (field "description")
  let required ← present? bool? (field "required")
  let format ← optional? string? (field "format")
  some { name, type, description, required, format }

/-- The kind of a group and its other fields; in an array the kind comes first. -/
def PropertyGroup.parts? : Json → Option (Json × Json)
  | .object entries => (entries.lookup "kind").map fun kind => (kind, .object entries)
  | .array (kind :: rest) => some (kind, .array rest)
  | _ => none

def PropertyGroup.ofJson? (v : Json) : Option PropertyGroup := do
  let (kind, rest) ← parts? v
  match kind with
  | .string "inherited" => do
    let field ← rest.fields? ["typeName"]
    (present? string? (field "typeName")).map .inherited
  | .string "fields" => do
    let field ← rest.fields? ["properties"]
    (present? (listOf? Property.ofJson?) (field "properties")).map .fields
  | _ => none

def Interface.ofJson? (v : Json) : Option Interface := do
  let field ← v.fields? ["typeName", "type", "parentGroups", "props", "isEnum"]
  let typeName ← present? string? (field "typeName")
  let type ← present? string? (field "type")
  let parentGroups ← present? (listOf? string?) (field "parentGroups")
  let props ← present? (listOf? PropertyGroup.ofJson?) (field "props")
  let isEnum ← present? bool? (field "isEnum")
  some { typeName, type, parentGroups, props, isEnum }

def VendorMapping.ofJson? (v : Json) : Option VendorMapping := do
  let field ← v.fields? ["rewrittenPath", "vendorAction", "vendorProduct", "vendorVersion"]
  let path ← present? string? (field "rewrittenPath")
  let vendorAction ← optional? string? (field "vendorAction")
  let vendorProduct ← optional? string? (field "vendorProduct")
  let vendorVersion ← optional? string? (field "vendorVersion")
  some { path, vendorAction, vendorProduct, vendorVersion }

def Client.ofJson? (v : Json) : Option Client := do
  let field ← v.fields? ["version", "namespace", "services", "interfaces", "mappings",
    "controllers"]
  let version ← present? string? (field "version")
  let scope ← present? string? (field "namespace")
  let services ← present? (listOf? ServiceUnit.ofJson?) (field "services")
  let interfaces ← present? (listOf? Interface.ofJson?) (field "interfaces")
  let mappings ← present? (listOf? VendorMapping.ofJson?) (field "mappings")
  let controllers ← present? (listOf? Controller.ofJson?) (field "controllers")
  some { version, scope, services, interfaces, mappings, controllers }

end ApiClient
