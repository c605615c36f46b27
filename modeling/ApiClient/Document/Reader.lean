import ApiClient.Document.Basic
import ApiClient.Json.Reader
import ApiClient.Json.Record
import ApiClient.Failure
import ApiClient.Schema.Reader

namespace ApiClient

open Json

def Info.ofJson? (v : Json) : Option Info := do
  let field ← v.fields? ["title", "version", "description"]
  some ⟨lenientText (field "title"), lenientText (field "version"),
    lenientText (field "description")⟩

def RefOr.ofJson? {α : Type} (read : Json → Option α) (v : Json) : Option (RefOr α) :=
  match v.reference? with
  | some path => some (.reference path)
  | none => (read v).map .item

def schemaField? : Option Json → Option (Option SchemaNode) :=
  optional? fun v => some (SchemaNode.ofJson v)

def Parameter.ofJson? (v : Json) : Option Parameter := do
  let field ← v.fields? ["name", "in", "description", "required", "schema", "type"]
  let schema ← schemaField? (field "schema")
  some {
    name := (lenientText (field "name")).getD ""
    location := (lenientText (field "in")).getD ""
    description := lenientText (field "description")
    required := (lenientFlag (field "required")).getD false
    schema
    type := lenientText (field "type") }

def MediaType.ofJson? (v : Json) : Option MediaType := do
  let field ← v.fields? ["schema"]
  let schema ← schemaField? (field "schema")
  some ⟨schema⟩

def contentField? : Option Json → Option (Option Content) :=
  optional? (mapOf? MediaType.ofJson?)

def RequestBody.ofJson? (v : Json) : Option RequestBody := do
  let field ← v.fields? ["description", "content", "required"]
  let content ← contentField? (field "content")
  some ⟨lenientText (field "description"), content, lenientFlag (field "required")⟩

def Response.ofJson? (v : Json) : Option Response := do
  let field ← v.fields? ["description", "content"]
  let content ← contentField? (field "content")
  some ⟨lenientText (field "description"), content⟩

def Operation.keys : List String :=
  ["operationId", "summary", "description", "tags", "parameters", "requestBody", "responses",
    "x-swagger-router-controller"]

def parametersField? : Option Json → Option (List (RefOr Parameter)) :=
  orDefault? [] (listOf? (RefOr.ofJson? Parameter.ofJson?))

def Operation.ofJson? : Json → Option Operation
  | .object entries => do
    let field (name : String) := entries.lookup name
    let parameters ← parametersField? (field "parameters")
    let requestBody ← optional? (RefOr.ofJson? RequestBody.ofJson?) (field "requestBody")
    let responses ← orDefault? [] (mapOf? (RefOr.ofJson? Response.ofJson?)) (field "responses")
    some {
      operationId := lenientText (field "operationId")
      summary := lenientText (field "summary")
      description := lenientText (field "description")
      tags := lenientTexts (field "tags")
      parameters
      requestBody
      responses
      routerController := lenientText (field "x-swagger-router-controller")
      extensions := entries.filter fun (key, _) => !keys.contains key }
  | _ => none

def PathItem.ofJson? (v : Json) : Option PathItem := do
  let field ← v.fields? ["get", "put", "post", "delete", "patch", "parameters"]
  let get ← optional? Operation.ofJson? (field "get")
  let put ← optional? Operation.ofJson? (field "put")
  let post ← optional? Operation.ofJson? (field "post")
  let delete ← optional? Operation.ofJson? (field "delete")
  let patch ← optional? Operation.ofJson? (field "patch")
  let parameters ← parametersField? (field "parameters")
  some ⟨get, put, post, delete, patch, parameters⟩

def Components.ofJson? (v : Json) : Option Components := do
  let field ← v.fields? ["schemas", "parameters", "requestBodies", "responses"]
  let schemas ← orDefault? [] (mapOf? fun v => some (SchemaNode.ofJson v)) (field "schemas")
  let parameters ←
    orDefault? [] (mapOf? (RefOr.ofJson? Parameter.ofJson?)) (field "parameters")
  let requestBodies ←
    orDefault? [] (mapOf? (RefOr.ofJson? RequestBody.ofJson?)) (field "requestBodies")
  let responses ← orDefault? [] (mapOf? (RefOr.ofJson? Response.ofJson?)) (field "responses")
  some ⟨schemas, parameters, requestBodies, responses⟩

def ApiSpec.ofJson? (v : Json) : Option ApiSpec := do
  let field ← v.fields? ["openapi", "swagger", "info", "paths", "components"]
  let openapi ← optional? string? (field "openapi")
  let swagger ← optional? string? (field "swagger")
  let info ← orDefault? Info.empty Info.ofJson? (field "info")
  let paths ← orDefault? [] (mapOf? PathItem.ofJson?) (field "paths")
  let components ← optional? Components.ofJson? (field "components")
  some ⟨openapi, swagger, info, paths, components⟩

def Operation.vendorBundle? (o : Operation) : Option VendorBundle :=
  match o.extensions.lookup VendorBundle.extensionKey with
  | some (.object entries) => do
    let apiName ← optional? string? (entries.lookup "apiName")
    let antTechVersion ← optional? string? (entries.lookup "antTechVersion")
    let productCode ← optional? string? (entries.lookup "productCode")
    let antTechApiName ← optional? string? (entries.lookup "antTechApiName")
    some ⟨apiName, antTechVersion, productCode, antTechApiName⟩
  | _ => none

/-- A description beside the tree it is read from; references point into the tree. -/
structure Document where
  tree : Json
  spec : ApiSpec
  reads : ApiSpec.ofJson? tree = some spec

def Document.version (d : Document) : String :=
  d.spec.info.version.getD ""

def Document.componentSchema? (d : Document) (name : String) : Option SchemaNode :=
  d.spec.components.bind fun c => c.schemas.lookup name

def Document.ofJson (tree : Json) : Except Failure Document :=
  match h : ApiSpec.ofJson? tree with
  | some spec => .ok ⟨tree, spec, h⟩
  | none => .error .invalidDocument

def Document.ofJsonText (text : String) : Except Failure Document :=
  match Json.ofText? text with
  | some tree => Document.ofJson tree
  | none => .error .documentJson

end ApiClient
