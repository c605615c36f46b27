import ApiClient.Document.Basic
import ApiClient.Schema.Printer

namespace ApiClient

open Json

def Info.toJson (i : Info) : Json :=
  .object [("title", ofOption .string i.title), ("version", ofOption .string i.version),
    ("description", ofOption .string i.description)]

def RefOr.toJson {α : Type} (write : α → Json) : RefOr α → Json
  | reference path => .object [("$ref", .string path)]
  | item a => write a

def writeEntries {α : Type} (write : α → Json) (entries : List (String × α)) : Json :=
  .object (entries.map fun (key, a) => (key, write a))

def Parameter.toJson (p : Parameter) : Json :=
  .object [("name", .string p.name), ("in", .string p.location),
    ("description", ofOption .string p.description), ("required", .bool p.required),
    ("schema", ofOption SchemaNode.toJson p.schema), ("type", ofOption .string p.type)]

def MediaType.toJson (m : MediaType) : Json :=
  .object [("schema", ofOption SchemaNode.toJson m.schema)]

def contentJson (content : Option Content) : Json :=
  ofOption (writeEntries MediaType.toJson) content

def RequestBody.toJson (b : RequestBody) : Json :=
  .object [("description", ofOption .string b.description), ("content", contentJson b.content),
    ("required", ofOption .bool b.required)]

def Response.toJson (r : Response) : Json :=
  .object [("description", ofOption .string r.description), ("content", contentJson r.content)]

def Operation.toJson (o : Operation) : Json :=
  .object ([("operationId", ofOption .string o.operationId),
    ("summary", ofOption .string o.summary),
    ("description", ofOption .string o.description),
    ("tags", strings o.tags),
    ("parameters", .array (o.parameters.map (RefOr.toJson Parameter.toJson))),
    ("requestBody", ofOption (RefOr.toJson RequestBody.toJson) o.requestBody),
    ("responses", writeEntries (RefOr.toJson Response.toJson) o.responses),
    ("x-swagger-router-controller", ofOption .string o.routerController)] ++ o.extensions)

def PathItem.toJson (p : PathItem) : Json :=
  .object [("get", ofOption Operation.toJson p.get), ("put", ofOption Operation.toJson p.put),
    ("post", ofOption Operation.toJson p.post), ("delete", ofOption Operation.toJson p.delete),
    ("patch", ofOption Operation.toJson p.patch),
    ("parameters", .array (p.parameters.map (RefOr.toJson Parameter.toJson)))]

def Components.toJson (c : Components) : Json :=
  .object [("schemas", writeEntries SchemaNode.toJson c.schemas),
    ("parameters", writeEntries (RefOr.toJson Parameter.toJson) c.parameters),
    ("requestBodies", writeEntries (RefOr.toJson RequestBody.toJson) c.requestBodies),
    ("responses", writeEntries (RefOr.toJson Response.toJson) c.responses)]

def ApiSpec.toJson (s : ApiSpec) : Json :=
  .object [("openapi", ofOption .string s.openapi), ("swagger", ofOption .string s.swagger),
    ("info", s.info.toJson), ("paths", writeEntries PathItem.toJson s.paths),
    ("components", ofOption Components.toJson s.components)]

end ApiClient
