import ApiClient.Client.Names
import ApiClient.Client.Prefix
import ApiClient.Endpoint.Body
import ApiClient.Endpoint.Parameters
import ApiClient.Endpoint.Response
import ApiClient.Endpoint.Tags
import ApiClient.Endpoint.Upload
import ApiClient.Naming.FunctionName
import ApiClient.Text.Sort

namespace ApiClient

/-- Everything that calls are built from. -/
structure Run where
  document : Document
  config : Config
  overrides : Overrides

structure TagCalls where
  operations : List Call
  mappings : List VendorMapping
  paramsTypes : List Interface

structure CallPart where
  call : Call
  mapping : Option VendorMapping
  paramsType : Option Interface

structure CallShape where
  params : ClassifiedParams
  body : Option Body
  file : Option (List FileField)
  response : ResponseType

variable [Text.Transliteration]

namespace Run

def typing (r : Run) : Typing :=
  ⟨r.config.scope, r.config.nullable, r.overrides.typeExpression⟩

def groups (r : Run) : List (String × List Endpoint) :=
  r.document.spec.groups r.config r.overrides

def shape (r : Run) (e : Endpoint) : Except Failure CallShape := do
  let params ← e.params r.document r.typing
  let body ← e.body r.document r.typing
  let file ← e.files r.document
  let response ← e.response r.document r.typing r.config.dataFields
  return ⟨params, body, file, response⟩

/-- Fold to lower camel case where that leaves an identifier. -/
def foldName (isCamelCase : Bool) (name : String) : String :=
  let folded := Text.lowerCamel name.toList
  if !isCamelCase || folded.isEmpty || Naming.startsWithDigit folded then name
  else String.ofList folded

def functionName (r : Run) (e : Endpoint) : String :=
  let named := (nonBlank (r.overrides.functionName e)).or
    (e.operation.operationId.bind fun id => Naming.functionName? id e.method)
  foldName r.config.isCamelCase (named.getD (Naming.defaultFunctionName e.method e.path))

def paramsTypeName (r : Run) (e : Endpoint) (functionName : String) : String :=
  (nonBlank (r.overrides.typeName e functionName)).getD
    (Naming.typeName (String.ofList (Text.upperFirst functionName.toList) ++ "Params"))

def summary (e : Endpoint) : Option String :=
  nonBlank e.operation.summary

def returns (r : Run) (e : Endpoint) : Except Failure (Option String) :=
  match e.operation.responses.lookup "default" with
  | none => .ok none
  | some node => do
    let resolved ← r.document.resolveResponse node
    return (nonBlank (resolved.bind Response.description)).map Text.trimText

/-- Summary, description and description of the default response. A summary that repeats the
function name says nothing, and then the description stands alone. -/
def describe (r : Run) (e : Endpoint) (functionName : String) : Except Failure String :=
  let description := Text.trimText (e.operation.description.getD "")
  if summary e = some functionName then .ok description
  else do
    let returns ← r.returns e
    let parts := ((summary e).map Text.trimText).toList ++ description :: returns.toList
    return " ".intercalate (parts.filter fun part => !part.isEmpty)

def paramsInterface (typeName : String) (params : ParamGroups) : Interface :=
  { typeName
    type := Typing.anyRecord
    parentGroups := []
    props := [.fields (params.toList.map fun p =>
      { name := p.name
        type := p.type
        description := p.description.getD ""
        required := p.required
        format := none })]
    isEnum := false }

def callParams (g : ParamGroups) : ParamGroups :=
  { query := g.query.map fun p => { p with isComplexType := p.isObject }
    path := Path.withAliases 0 g.path
    cookie := g.cookie }

def aliasedPath (e : Endpoint) (params : ParamGroups) : String :=
  Path.pointAtAliases (Path.template e.path) params.path

/-- The path that the vendor's bundle gives, if any. -/
def vendorPath? (bundle : Option VendorBundle) : Option String :=
  (bundle.bind VendorBundle.antTechApiName).filter fun path => !path.isEmpty

def vendorMapping (path : String) (bundle : VendorBundle) : VendorMapping :=
  ⟨path, bundle.apiName, bundle.productCode, bundle.antTechVersion⟩

def hasFormData (s : CallShape) : Bool :=
  s.body.any (fun b => Text.containsText "form-data" b.mediaType) || s.file.isSome

def operationKey (e : Endpoint) : String :=
  e.method.text ++ " " ++ e.path

def pathInComment (path : String) : String :=
  Text.replaceText "*" "&#42;" path

/-- The name of the parameter type; a call without parameters takes none of the names. -/
def nameParams (r : Run) (e : Endpoint) (functionName : String) (params : ParamGroups)
    (names : ParamsTypeNames) : (String × Bool) × ParamsTypeNames :=
  let base := r.paramsTypeName e functionName
  if params.isEmpty then ((base, false), names) else names.assign (operationKey e) base

def callPart (r : Run) (tag : String) (e : Endpoint) (s : CallShape)
    (functionName description : String) (names : ParamsTypeNames) :
    CallPart × ParamsTypeNames :=
  let params := callParams s.params.groups
  let bundle := e.operation.vendorBundle?
  let path := (vendorPath? bundle).getD (aliasedPath e params)
  let (finalPath, hasApiPrefix) :=
    applyPrefix r.config r.overrides ⟨path, e.method, tag, functionName⟩
  let ((typeName, fresh), names) := r.nameParams e functionName params names
  let call : Call :=
    { functionName
      typeName := r.typing.qualify typeName
      method := e.method.text
      rawPath := e.path
      path := finalPath
      pathInComment := pathInComment finalPath
      summary := summary e
      description
      params
      hasParams := !params.isEmpty
      body := s.body
      file := s.file
      response := s.response
      hasHeader := s.params.hasHeader
      hasFormData := hasFormData s
      hasPathVariables := !params.path.isEmpty
      hasApiPrefix
      options := (r.overrides.options e).getD []
      vendorVersion := bundle.bind VendorBundle.antTechVersion }
  ({ call
     mapping := bundle.map (vendorMapping path)
     paramsType := if fresh then some (paramsInterface typeName params) else none }, names)

/-- A path with a variable that nothing fills in is left out. -/
def isSkipped (e : Endpoint) : Bool :=
  Text.containsText "$\x7b" e.path

/-- The parts of the endpoints of a tag. A failure keeps the names given before it. -/
def tagParts (r : Run) (tag : String) (used : NameCounts) (names : ParamsTypeNames) :
    List Endpoint → Except Failure (List CallPart) × ParamsTypeNames
  | [] => (.ok [], names)
  | e :: rest =>
    if isSkipped e then r.tagParts tag used names rest
    else
      let (functionName, used') := used.take (r.functionName e)
      let drafted := do
        let shape ← r.shape e
        let description ← r.describe e functionName
        return (shape, description)
      match drafted with
      | .error cause => (.error (.operation tag e.method.text e.path cause), names)
      | .ok (shape, description) =>
        let (part, names') := r.callPart tag e shape functionName description names
        let (more, names'') := r.tagParts tag used' names' rest
        (more.map (part :: ·), names'')

def collectParts (parts : List CallPart) : TagCalls :=
  { operations := Text.sortByKey Call.path (parts.map CallPart.call)
    mappings := parts.filterMap CallPart.mapping
    paramsTypes := parts.filterMap CallPart.paramsType }

def tagCalls (r : Run) (tag : String) (endpoints : List Endpoint) (names : ParamsTypeNames) :
    Except Failure TagCalls × ParamsTypeNames :=
  let (parts, names) := r.tagParts tag [] names endpoints
  (parts.map collectParts, names)

end Run

end ApiClient
