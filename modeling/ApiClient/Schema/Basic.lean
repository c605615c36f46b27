import ApiClient.Json.Basic

namespace ApiClient

inductive SchemaType where
  | single (name : String)
  | multiple (names : List String)
deriving DecidableEq, Repr

inductive Required where
  | flag (on : Bool)
  | listed (keys : List String)
deriving DecidableEq, Repr

mutual

inductive SchemaNode where
  | reference (path : String)
  | literal (text : String)
  | schema (s : Schema)
  | other (value : Json)

/-- `properties` is absent when the keyword is, which differs from having none. -/
structure Schema where
  type : Option SchemaType
  format : Option String
  title : Option String
  description : Option String
  properties : Option (List (String × SchemaNode))
  required : Option Required
  items : Option Items
  enum : Option (List EnumEntry)
  allOf : List SchemaNode
  oneOf : List SchemaNode
  anyOf : List SchemaNode
  extensions : List (String × Json)

inductive Items where
  | tuple (members : List SchemaNode)
  | single (item : SchemaNode)

/-- An enumerated value. An array or object is typed by its reading as a schema. -/
inductive EnumEntry where
  | scalar (value : Json)
  | composite (value : Json) (reading : SchemaNode)

end

def Required.includes : Required → String → Bool
  | .flag on, _ => on
  | .listed keys, key => keys.contains key

namespace Schema

def empty : Schema :=
  ⟨none, none, none, none, none, none, none, none, [], [], [], []⟩

def ofType (name : String) : Schema :=
  { empty with type := some (.single name) }

/-- The declared type; of a list of types the first that is not `null`. -/
def typeName? (s : Schema) : Option String :=
  match s.type with
  | none => none
  | some (.single name) => some name
  | some (.multiple names) => (names.find? (· ≠ "null")).or names.head?

def isObjectType (s : Schema) : Bool :=
  s.typeName? == some "object"

def isBinary (s : Schema) : Bool :=
  s.format == some "binary" || s.format == some "base64"

/-- Whether a property is listed as required, or all are. -/
def requires (s : Schema) (key : String) : Bool :=
  s.required.any (Required.includes · key)

def isFlaggedRequired (s : Schema) : Bool :=
  s.required == some (.flag true)

def hasProperties (s : Schema) : Bool :=
  s.properties.any fun ps => !ps.isEmpty

end Schema

namespace SchemaNode

def schema? : SchemaNode → Option Schema
  | schema s => some s
  | _ => none

def reference? : SchemaNode → Option String
  | reference path => some path
  | _ => none

end SchemaNode

def Schema.isBinaryArray (s : Schema) : Bool :=
  (s.typeName? == some "array" || s.typeName? == some "string[]") &&
    match s.items with
    | some (.single item) => item.schema?.any Schema.isBinary
    | _ => false

/-- A property is required when its parent says so or when it says so itself. -/
def Schema.isPropertyRequired (parent : Schema) (key : String) (property : SchemaNode) : Bool :=
  parent.requires key || property.schema?.any Schema.isFlaggedRequired

/-- An object with a numeric `id`, used where a document declares no schema. -/
def SchemaNode.default : SchemaNode :=
  .schema { Schema.ofType "object" with
    properties := some [("id", .schema (Schema.ofType "number"))] }

end ApiClient
