import ApiClient.Client.Basic
import ApiClient.Document.Reference
import ApiClient.Typing.Expression

namespace ApiClient.Endpoint

variable [Text.Transliteration]

def isUpload (node : SchemaNode) : Bool :=
  node.schema?.any fun s => s.isBinary || s.isBinaryArray

def bodyProperties (t : Typing) (s : Schema) : List BodyProperty :=
  ((s.properties.getD []).filter fun (_, node) => !isUpload node).map fun (key, node) =>
    { key
      type := t.nodeType node
      required := s.isPropertyRequired key node
      description := node.schema?.bind Schema.description }

def declaredBody (d : Document) (e : Endpoint) : Except Failure (Option RequestBody) :=
  match e.operation.requestBody with
  | none => .ok none
  | some node => d.resolveBody node

def bodyShape (t : Typing) (node resolved : SchemaNode) : BodyShape :=
  match resolved with
  | .schema s =>
    if s.isObjectType && s.properties.isSome then .properties (bodyProperties t s)
    else .whole (t.nodeType node)
  | _ => .whole (t.nodeType node)

def body (d : Document) (t : Typing) (e : Endpoint) : Except Failure (Option Body) := do
  match (← declaredBody d e) with
  | none => return none
  | some declared =>
    match declared.content with
    | some ((mediaType, media) :: _) =>
      let node := media.schema.getD SchemaNode.default
      let resolved ← d.resolveSchema node
      return some {
        mediaType := if mediaType = "*/*" then "" else mediaType
        required := declared.required.getD false
        shape := bodyShape t node resolved }
    | _ => return none

end ApiClient.Endpoint
