import ApiClient.Client.Basic

namespace ApiClient

open Json

def Param.toJson (p : Param) : Json :=
  .object ([("name", .string p.name), ("location", .string p.location)] ++
    optionalEntry "description" (p.description.map .string) ++
    [("required", .bool p.required), ("type", .string p.type), ("isObject", .bool p.isObject),
      ("isComplexType", .bool p.isComplexType)] ++
    optionalEntry "alias" (p.aliasName.map .string))

def ParamGroups.toJson (g : ParamGroups) : Json :=
  .object [("query", .array (g.query.map Param.toJson)),
    ("path", .array (g.path.map Param.toJson)), ("cookie", .array (g.cookie.map Param.toJson))]

def BodyProperty.toJson (p : BodyProperty) : Json :=
  .object ([("key", .string p.key), ("type", .string p.type), ("required", .bool p.required)] ++
    optionalEntry "description" (p.description.map .string))

def BodyShape.toEntries : BodyShape → List (String × Json)
  | properties ps =>
    [("shape", .string "properties"), ("properties", .array (ps.map BodyProperty.toJson))]
  | whole type => [("shape", .string "whole"), ("typeExpr", .string type)]

def Body.toJson (b : Body) : Json :=
  .object ([("mediaType", .string b.mediaType), ("required", .bool b.required)] ++
    b.shape.toEntries)

def FileField.toJson (f : FileField) : Json :=
  .object [("title", .string f.title), ("multiple", .bool f.multiple)]

def filesJson (fields : List FileField) : Json :=
  .array (fields.map FileField.toJson)

def ResponseType.toJson (r : ResponseType) : Json :=
  .object [("mediaType", .string r.mediaType), ("type", .string r.type)]

def Call.toJson (c : Call) : Json :=
  .object ([("functionName", .string c.functionName), ("typeName", .string c.typeName),
      ("method", .string c.method), ("rawPath", .string c.rawPath), ("path", .string c.path),
      ("pathInComment", .string c.pathInComment)] ++
    optionalEntry "summary" (c.summary.map .string) ++
    [("description", .string c.description), ("params", c.params.toJson),
      ("hasParams", .bool c.hasParams)] ++
    optionalEntry "body" (c.body.map Body.toJson) ++
    optionalEntry "file" (c.file.map filesJson) ++
    [("response", c.response.toJson), ("hasHeader", .bool c.hasHeader),
      ("hasFormData", .bool c.hasFormData), ("hasPathVariables", .bool c.hasPathVariables),
      ("hasApiPrefix", .bool c.hasApiPrefix), ("options", .object c.options)] ++
    optionalEntry "vendorVersion" (c.vendorVersion.map .string))

def ServiceUnit.toJson (u : ServiceUnit) : Json :=
  .object [("tag", .string u.tag), ("fileName", .string u.fileName),
    ("className", .string u.className), ("instanceName", .string u.instanceName),
    ("operations", .array (u.operations.map Call.toJson))]

def Controller.toJson (c : Controller) : Json :=
  .object [("fileName", .string c.fileName), ("controllerName", .string c.controllerName)]

def Property.toJson (p : Property) : Json :=
  .object ([("name", .string p.name), ("type", .string p.type),
      ("description", .string p.description), ("required", .bool p.required)] ++
    optionalEntry "format" (p.format.map .string))

def PropertyGroup.toJson : PropertyGroup → Json
  | inherited typeName => .object [("kind", .string "inherited"), ("typeName", .string typeName)]
  | fields properties =>
    .object [("kind", .string "fields"), ("properties", .array (properties.map Property.toJson))]

def Interface.toJson (i : Interface) : Json :=
  .object [("typeName", .string i.typeName), ("type", .string i.type),
    ("parentGroups", strings i.parentGroups),
    ("props", .array (i.props.map PropertyGroup.toJson)), ("isEnum", .bool i.isEnum)]

def VendorMapping.toJson (m : VendorMapping) : Json :=
  .object [("rewrittenPath", .string m.path),
    ("vendorAction", ofOption .string m.vendorAction),
    ("vendorProduct", ofOption .string m.vendorProduct),
    ("vendorVersion", ofOption .string m.vendorVersion)]

def Client.toJson (c : Client) : Json :=
  .object [("version", .string c.version), ("namespace", .string c.scope),
    ("services", .array (c.services.map ServiceUnit.toJson)),
    ("interfaces", .array (c.interfaces.map Interface.toJson)),
    ("mappings", .array (c.mappings.map VendorMapping.toJson)),
    ("controllers", .array (c.controllers.map Controller.toJson))]

end ApiClient
