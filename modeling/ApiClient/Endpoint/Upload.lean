import ApiClient.Endpoint.Body

namespace ApiClient.Endpoint

/-- What is left to do: follow a reference, or look for files among the properties of a schema. -/
inductive UploadStep where
  | follow (reference : String)
  | properties (properties : List (String × SchemaNode))

mutual

def uploadSteps : SchemaNode → List UploadStep
  | .reference path => [.follow path]
  | .schema ⟨_, _, _, _, properties, _, _, _, allOf, _, _, _⟩ =>
    memberSteps allOf ++ [.properties (properties.getD [])]
  | _ => []

def memberSteps : List SchemaNode → List UploadStep
  | [] => []
  | node :: rest => uploadSteps node ++ memberSteps rest

end

def resolvedSteps : SchemaNode → List UploadStep
  | .schema s => uploadSteps (.schema s)
  | _ => []

def fileField? (key : String) : SchemaNode → Option FileField
  | .schema s =>
    if s.isBinary then some ⟨key, false⟩
    else if s.isBinaryArray then some ⟨key, true⟩
    else none
  | _ => none

def propertyFile (d : Document) (property : String × SchemaNode) :
    Except Failure (Option FileField) := do
  let resolved ← d.resolveSchema property.2
  return fileField? property.1 resolved

def propertyFiles (d : Document) (properties : List (String × SchemaNode)) :
    Except Failure (List FileField) := do
  let fields ← properties.mapM (propertyFile d)
  return fields.filterMap id

/-- Work off the steps; `pending` are the references not yet followed. -/
def collectFiles (d : Document) (pending : List String) :
    List UploadStep → Except Failure (List FileField)
  | [] => .ok []
  | .follow reference :: rest =>
    if reference ∈ pending then do
      let resolved ← d.resolveSchema (.reference reference)
      collectFiles d (Document.without reference pending) (resolvedSteps resolved ++ rest)
    else collectFiles d pending rest
  | .properties properties :: rest => do
    let fields ← propertyFiles d properties
    let more ← collectFiles d pending rest
    return fields ++ more
termination_by steps => (pending.length, steps.length)
decreasing_by
  · exact Prod.Lex.left _ _ (Document.length_without_lt ‹_›)
  · exact Prod.Lex.right _ (by simp)
  · exact Prod.Lex.right _ (by simp)

def UploadStep.reference? : UploadStep → Option String
  | follow reference => some reference
  | properties _ => none

def schemaFiles (d : Document) (node : SchemaNode) : Except Failure (List FileField) :=
  let steps := uploadSteps node
  collectFiles d (steps.filterMap UploadStep.reference? ++ d.tree.references) steps

/-- The schema of the multipart form of a body. -/
def multipartSchema? (b : RequestBody) : Option SchemaNode :=
  (b.content.bind fun content => content.lookup "multipart/form-data").bind MediaType.schema

def files (d : Document) (e : Endpoint) : Except Failure (Option (List FileField)) := do
  match (← declaredBody d e).bind multipartSchema? with
  | none => return none
  | some node =>
    let fields ← schemaFiles d node
    return if fields.isEmpty then none else some fields

end ApiClient.Endpoint
