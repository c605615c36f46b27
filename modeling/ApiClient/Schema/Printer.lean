import ApiClient.Schema.Basic

namespace ApiClient

def SchemaType.toJson : SchemaType → Json
  | single name => .string name
  | multiple names => Json.strings names

def Required.toJson : Required → Json
  | flag on => .bool on
  | listed keys => Json.strings keys

def EnumEntry.value : EnumEntry → Json
  | scalar v => v
  | composite v _ => v

def memberEntry (key : String) (members : List Json) : List (String × Json) :=
  if members.isEmpty then [] else [(key, .array members)]

mutual

def SchemaNode.toJson : SchemaNode → Json
  | .reference path => .object [("$ref", .string path)]
  | .literal text => .string text
  | .schema s => .object (Schema.toEntries s)
  | .other v => v

def Schema.toEntries : Schema → List (String × Json)
  | ⟨type, format, title, description, properties, required, items, enum, allOf, oneOf, anyOf,
      extensions⟩ =>
    Json.optionalEntry "type" (type.map SchemaType.toJson) ++
    Json.optionalEntry "format" (format.map .string) ++
    Json.optionalEntry "title" (title.map .string) ++
    Json.optionalEntry "description" (description.map .string) ++
    (match properties with
      | some ps => [("properties", .object (SchemaNode.toEntries ps))]
      | none => []) ++
    Json.optionalEntry "required" (required.map Required.toJson) ++
    (match items with
      | some i => [("items", Items.toJson i)]
      | none => []) ++
    Json.optionalEntry "enum" (enum.map fun es => .array (es.map EnumEntry.value)) ++
    memberEntry "allOf" (SchemaNode.toJsons allOf) ++
    memberEntry "oneOf" (SchemaNode.toJsons oneOf) ++
    memberEntry "anyOf" (SchemaNode.toJsons anyOf) ++
    extensions

def Items.toJson : Items → Json
  | .tuple members => .array (SchemaNode.toJsons members)
  | .single item => SchemaNode.toJson item

def SchemaNode.toEntries : List (String × SchemaNode) → List (String × Json)
  | [] => []
  | (key, node) :: rest => (key, SchemaNode.toJson node) :: SchemaNode.toEntries rest

def SchemaNode.toJsons : List SchemaNode → List Json
  | [] => []
  | node :: rest => SchemaNode.toJson node :: SchemaNode.toJsons rest

end

end ApiClient
