import ApiClient.Json.Scalar
import ApiClient.Schema.Basic

namespace ApiClient

def SchemaType.ofJson? : Json → Option (Option SchemaType)
  | .null => some none
  | .string name => some (some (.single name))
  | .array names => (Json.allStrings? names).map fun names => some (.multiple names)
  | _ => none

def Required.ofJson? : Json → Option (Option Required)
  | .null => some none
  | .bool on => some (some (.flag on))
  | .array keys => (Json.allStrings? keys).map fun keys => some (.listed keys)
  | _ => none

mutual

def SchemaNode.ofJson : Json → SchemaNode
  | .object entries =>
    match entries.lookup "$ref" with
    | some (.string path) => .reference path
    | _ =>
      match Schema.ofEntries? entries with
      | some s => .schema s
      | none => .other (.object entries)
  | .string text => .literal text
  | v => .other v

def Schema.ofEntries? : List (String × Json) → Option Schema
  | [] => some Schema.empty
  | (key, v) :: rest =>
    (Schema.ofEntries? rest).bind fun s =>
      match key with
      | "type" => (SchemaType.ofJson? v).map fun t => { s with type := t }
      | "format" => some { s with format := v.scalarText? }
      | "title" => some { s with title := v.scalarText? }
      | "description" => some { s with description := v.scalarText? }
      | "properties" =>
        match v with
        | .null => some { s with properties := none }
        | .object entries =>
          some { s with properties := some (mapOfEntries (SchemaNode.ofEntries entries)) }
        | _ => none
      | "required" => (Required.ofJson? v).map fun r => { s with required := r }
      | "items" =>
        match v with
        | .null => some { s with items := none }
        | .array members => some { s with items := some (.tuple (SchemaNode.ofList members)) }
        | v => some { s with items := some (.single (SchemaNode.ofJson v)) }
      | "enum" =>
        match v with
        | .null => some { s with enum := none }
        | .array values => some { s with enum := some (EnumEntry.ofList values) }
        | _ => none
      | "allOf" =>
        match v with
        | .array members => some { s with allOf := SchemaNode.ofList members }
        | _ => none
      | "oneOf" =>
        match v with
        | .array members => some { s with oneOf := SchemaNode.ofList members }
        | _ => none
      | "anyOf" =>
        match v with
        | .array members => some { s with anyOf := SchemaNode.ofList members }
        | _ => none
      | key => some { s with extensions := (key, v) :: s.extensions }

def SchemaNode.ofEntries : List (String × Json) → List (String × SchemaNode)
  | [] => []
  | (key, v) :: rest => (key, SchemaNode.ofJson v) :: SchemaNode.ofEntries rest

def SchemaNode.ofList : List Json → List SchemaNode
  | [] => []
  | v :: rest => SchemaNode.ofJson v :: SchemaNode.ofList rest

def EnumEntry.ofList : List Json → List EnumEntry
  | [] => []
  | v :: rest =>
    match v with
    | .array items => .composite v (.other (.array items)) :: EnumEntry.ofList rest
    | .object _ => .composite v (SchemaNode.ofJson v) :: EnumEntry.ofList rest
    | v => .scalar v :: EnumEntry.ofList rest

end

end ApiClient
