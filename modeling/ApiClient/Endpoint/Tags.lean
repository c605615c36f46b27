import ApiClient.Config.Basic
import ApiClient.Naming.TypeName
import ApiClient.Overrides
import ApiClient.Text.Camel
import ApiClient.Typing.Expression

namespace ApiClient

variable [Text.Transliteration]

def nonBlankTexts (l : List String) : List String :=
  l.filter fun s => !Text.isBlankText s

namespace Endpoint

def secondSegment? (path : String) : Option String :=
  let trimmed := match path.toList with
    | '/' :: rest => rest
    | cs => cs
  match (trimmed.splitOnP (· == '/'))[1]? with
  | some (c :: segment) => some (String.ofList (c :: segment))
  | _ => none

def rawTags (o : Overrides) (e : Endpoint) : List String :=
  let overriding := nonBlankTexts ((o.tags e).getD [])
  let declared := nonBlankTexts e.operation.tags
  if !overriding.isEmpty then overriding
  else
    match nonBlank e.operation.routerController with
    | some controller => [controller]
    | none =>
      if !declared.isEmpty then declared
      else
        match nonBlank e.operation.operationId with
        | some id => [id]
        | none => (secondSegment? e.path).toList

def foldTag (isCamelCase : Bool) (raw : String) : String :=
  let tag := Naming.typeName raw
  if isCamelCase then String.ofList (Text.lowerCamel tag.toList) else tag

def tags (c : Config) (o : Overrides) (e : Endpoint) : List String :=
  distinct ((e.rawTags o).map (foldTag c.isCamelCase))

end Endpoint

/-- The endpoints of each tag, tags in order of first occurrence. -/
def ApiSpec.groups (spec : ApiSpec) (c : Config) (o : Overrides) :
    List (String × List Endpoint) :=
  let tagged := spec.endpoints.flatMap fun e => (e.tags c o).map fun tag => (tag, e)
  (distinct (tagged.map Prod.fst)).map fun tag =>
    (tag, (tagged.filter fun entry => entry.1 == tag).map Prod.snd)

end ApiClient
