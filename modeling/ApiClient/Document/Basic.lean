import ApiClient.Document.HttpMethod
import ApiClient.Schema.Basic

namespace ApiClient

structure Info where
  title : Option String
  version : Option String
  description : Option String

def Info.empty : Info :=
  ⟨none, none, none⟩

/-- Something written in place, or a reference to it. -/
inductive RefOr (α : Type) where
  | reference (path : String)
  | item (a : α)

structure Parameter where
  name : String
  location : String
  description : Option String
  required : Bool
  schema : Option SchemaNode
  type : Option String

structure MediaType where
  schema : Option SchemaNode

abbrev Content := List (String × MediaType)

structure RequestBody where
  description : Option String
  content : Option Content
  required : Option Bool

structure Response where
  description : Option String
  content : Option Content

structure Operation where
  operationId : Option String
  summary : Option String
  description : Option String
  tags : List String
  parameters : List (RefOr Parameter)
  requestBody : Option (RefOr RequestBody)
  responses : List (String × RefOr Response)
  routerController : Option String
  extensions : List (String × Json)

structure PathItem where
  get : Option Operation
  put : Option Operation
  post : Option Operation
  delete : Option Operation
  patch : Option Operation
  parameters : List (RefOr Parameter)

structure Components where
  schemas : List (String × SchemaNode)
  parameters : List (String × RefOr Parameter)
  requestBodies : List (String × RefOr RequestBody)
  responses : List (String × RefOr Response)

structure ApiSpec where
  openapi : Option String
  swagger : Option String
  info : Info
  paths : List (String × PathItem)
  components : Option Components

def PathItem.operation? (p : PathItem) : HttpMethod → Option Operation
  | .get => p.get
  | .put => p.put
  | .post => p.post
  | .delete => p.delete
  | .patch => p.patch

/-- The defined operations of a path, in the order of the methods. -/
def PathItem.operations (p : PathItem) : List (HttpMethod × Operation) :=
  HttpMethod.all.filterMap fun method => (p.operation? method).map fun o => (method, o)

structure VendorBundle where
  apiName : Option String
  antTechVersion : Option String
  productCode : Option String
  antTechApiName : Option String

def VendorBundle.extensionKey : String := "x-antTech-description"

structure Endpoint where
  path : String
  method : HttpMethod
  operation : Operation
  pathParameters : List (RefOr Parameter)

def ApiSpec.endpoints (spec : ApiSpec) : List Endpoint :=
  spec.paths.flatMap fun (path, item) =>
    item.operations.map fun (method, operation) => ⟨path, method, operation, item.parameters⟩

end ApiClient
