import ApiClient.Client.Basic
import ApiClient.Document.Reference
import ApiClient.Typing.Expression

namespace ApiClient.Endpoint

variable [Text.Transliteration]

def responseCodes : List String :=
  ["default", "200", "201"]

def declaredResponse? (o : Operation) : Option (RefOr Response) :=
  responseCodes.findSome? fun code => o.responses.lookup code

def chosenMedia? (content : Content) : Option (String × MediaType) :=
  (content.find? fun (name, _) => name == "application/json").or content.head?

/-- The properties of a schema that is an object or has any. -/
def envelope? : SchemaNode → Option (List (String × SchemaNode))
  | .schema s => s.properties
  | _ => none

/-- What a reference stands for in a response: a data field of the envelope, or the envelope. -/
def unwrap (dataFields : List String) (node target : SchemaNode) : SchemaNode :=
  match envelope? target with
  | none => node
  | some properties => (dataFields.findSome? fun field => properties.lookup field).getD target

def unwrapped (d : Document) (dataFields : List String) (node : SchemaNode) :
    Except Failure SchemaNode :=
  match node with
  | .reference _ => do
    let target ← d.resolveSchema node
    return unwrap dataFields node target
  | node => .ok node

def markProperty (parent : Schema) (key : String) : SchemaNode → SchemaNode
  | .schema s =>
    .schema (if parent.requires key then { s with required := some (.flag true) } else s)
  | node => node

/-- Every property that the schema requires is flagged itself. -/
def markRequired : SchemaNode → SchemaNode
  | .schema s =>
    .schema { s with
      properties := s.properties.map fun ps => ps.map fun (key, node) =>
        (key, markProperty s key node) }
  | node => node

def responseOf (d : Document) (t : Typing) (dataFields : List String) (r : Response) :
    Except Failure ResponseType :=
  match r.content.bind chosenMedia? with
  | none => .ok .unknown
  | some (mediaType, media) => do
    let node ← unwrapped d dataFields (media.schema.getD SchemaNode.default)
    return ⟨mediaType, t.nodeType (markRequired node)⟩

def response (d : Document) (t : Typing) (dataFields : List String) (e : Endpoint) :
    Except Failure ResponseType :=
  match declaredResponse? e.operation with
  | none => .ok .unknown
  | some node => do
    match ← d.resolveResponse node with
    | none => return .unknown
    | some r => responseOf d t dataFields r

end ApiClient.Endpoint
