import ApiClient.Client.Basic
import ApiClient.Failure
import ApiClient.Json.Printer
import ApiClient.Render.Member
import ApiClient.Text.CaseMap

namespace ApiClient.Render

def upperText (s : String) : String :=
  String.ofList (s.toList.flatMap Text.toUppercase)

def lowerFirst (s : String) : String :=
  String.ofList (Text.lowerFirst s.toList)

def hasFiles (c : Call) : Bool :=
  c.file.any fun fields => !fields.isEmpty

def headComment (c : Call) : String :=
  "\n/** " ++ (if c.description.isEmpty then "" else c.description ++ " ") ++
    upperText c.method ++ " " ++ c.pathInComment ++ " */\n"

def paramsParameter (c : Call) : String :=
  if c.hasParams then "\n  params: " ++ c.typeName ++ "," else ""

def bodyPropertyText (nullable : Bool) (p : BodyProperty) : String :=
  commentLine (p.description.getD "") ++ memberLine nullable p.required p.key p.type

def bodyParameter (nullable : Bool) (c : Call) : String :=
  match c.body with
  | none => ""
  | some body =>
    match body.shape with
    | .properties properties =>
      "\n  body: \x7b" ++ String.join (properties.map (bodyPropertyText nullable)) ++ "\n  \x7d,"
    | .whole type => "\n  body: " ++ type ++ ","

def fileParameter (f : FileField) : String :=
  "\n  " ++ lowerFirst f.title ++ "?: File" ++ (if f.multiple then "[]" else "") ++ ","

def fileParameters (c : Call) : String :=
  String.join ((c.file.getD []).map fileParameter)

def signature (nullable : Bool) (c : Call) : String :=
  "export async function " ++ c.functionName ++ "(" ++ paramsParameter c ++
    bodyParameter nullable c ++ fileParameters c ++
    "\n  options?: \x7b [key: string]: any \x7d,\n) \x7b"

def noAlias : Failure :=
  .render ("Template service.ts failed: Error \x7b kind: Msg(\"Failed to render 'service.ts'\"), " ++
    "source: Some(Error \x7b kind: Msg(\"Variable `param.alias` not found in context while " ++
    "rendering 'service.ts'\"), source: None \x7d) \x7d")

def boundVariable (p : Param) : Except Failure String :=
  match p.aliasName with
  | some name => .ok ("'" ++ p.name ++ "': " ++ name ++ ", ")
  | none => .error noAlias

/-- Path parameters are taken out of `params`; the rest is sent as the query. -/
def bindings (c : Call) : Except Failure String :=
  if c.params.path.isEmpty then
    .ok (if c.hasParams then "\n  const queryParams = params;" else "")
  else do
    let bound ← c.params.path.mapM boundVariable
    return "\n  const \x7b " ++ String.join bound ++ "...queryParams \x7d = params;"

def fileAppend (f : FileField) : String :=
  let name := lowerFirst f.title
  let append :=
    if f.multiple then
      "\n    " ++ name ++ ".forEach((item) => formData.append('" ++ f.title ++ "', item));"
    else "\n    formData.append('" ++ f.title ++ "', " ++ name ++ ");"
  "\n  if (" ++ name ++ ") \x7b" ++ append ++ "\n  \x7d"

def bodyAppend : String :=
  "\n  Object.keys(body).forEach((key) => \x7b" ++
  "\n    const item = (body as any)[key];" ++
  "\n    if (item !== undefined && item !== null) \x7b" ++
  "\n      formData.append(key, typeof item === 'object' && !(item instanceof File) ? " ++
    "JSON.stringify(item) : item);" ++
  "\n    \x7d" ++
  "\n  \x7d);"

def formData (c : Call) : String :=
  if hasFiles c then
    "\n  const formData = new FormData();" ++
      String.join ((c.file.getD []).map fileAppend) ++
      (if c.body.isSome then bodyAppend else "")
  else ""

def contentType (c : Call) : String :=
  match c.body with
  | some body =>
    if c.hasFormData || body.mediaType.isEmpty then ""
    else "\n    headers: \x7b\n      'Content-Type': '" ++ body.mediaType ++ "',\n    \x7d,"
  | none => ""

def spreadQuery (p : Param) : String :=
  if p.isComplexType then
    "\n      '" ++ p.name ++ "': undefined,\n      ...queryParams['" ++ p.name ++ "'],"
  else ""

def queryParams (c : Call) : String :=
  if c.hasParams then
    "\n    params: \x7b\n      ...queryParams," ++
      String.join (c.params.query.map spreadQuery) ++ "\n    \x7d,"
  else ""

def requestData (c : Call) : String :=
  if hasFiles c then "\n    data: formData,\n    requestType: 'form',"
  else if c.body.isSome then "\n    data: body,"
  else ""

def request (c : Call) : String :=
  "\n\n  return request<" ++ c.response.type ++ ">(`" ++ c.path ++ "`, \x7b" ++
    "\n    method: '" ++ upperText c.method ++ "'," ++ contentType c ++ queryParams c ++
    requestData c ++ "\n    ..." ++ (Json.object c.options).text ++
    ",\n    ...(options || \x7b\x7d),\n  \x7d);\n\x7d\n"

def callText (nullable : Bool) (c : Call) : Except Failure String := do
  let bound ← bindings c
  return headComment c ++ signature nullable c ++ bound ++ formData c ++ request c

def service (nullable : Bool) (requestLibPath : String) (u : ServiceUnit) :
    Except Failure String := do
  let calls ← u.operations.mapM (callText nullable)
  return "// @ts-ignore\n/* eslint-disable */\nimport \x7b request \x7d from '" ++
    requestLibPath ++ "';\n" ++ String.join calls

end ApiClient.Render
