import ApiClient.Client.Calls
import ApiClient.Typing.Named

namespace ApiClient.Run

variable [Text.Transliteration]

/-- The file of a unit. A tag without letters and digits is named by its position. -/
def fileName (r : Run) (index : Nat) (tag : String) : String :=
  (nonBlank (r.overrides.fileName tag)).getD
    (let name := Naming.replaceDot tag
     if name.isEmpty then "api" ++ toString index else name)

def serviceUnit (r : Run) (index : Nat) (tag : String) (calls : TagCalls) : ServiceUnit :=
  let fileName := r.fileName index tag
  let className := (nonBlank (r.overrides.className tag)).getD fileName
  { tag
    fileName
    className
    instanceName := String.ofList (Text.lowerFirst className.toList)
    operations := calls.operations }

def allCalls (r : Run) (index : Nat) (names : ParamsTypeNames) :
    List (String × List Endpoint) → Except Failure (List (Nat × String × TagCalls))
  | [] => .ok []
  | (tag, endpoints) :: rest => do
    let (calls, names) := r.tagCalls tag endpoints names
    let calls ← calls
    let more ← r.allCalls (index + 1) names rest
    return (index, tag, calls) :: more

def serviceUnits (r : Run) (calls : List (Nat × String × TagCalls)) : List ServiceUnit :=
  (calls.filter fun (_, _, c) => !c.operations.isEmpty).map fun (index, tag, c) =>
    r.serviceUnit index tag c

/-- The whole client, or the first failure. -/
def client (r : Run) : Except Failure Client := do
  let calls ← r.allCalls 0 .empty r.groups
  let interfaces ← r.document.interfaces r.typing r.config.enumStyle
  let services := r.serviceUnits calls
  let paramsTypes := calls.flatMap fun (_, _, c) => c.paramsTypes
  return {
    version := r.document.version
    scope := r.config.scope
    services
    interfaces := Text.sortByKey Interface.typeName (interfaces ++ paramsTypes)
    mappings := calls.flatMap fun (_, _, c) => c.mappings
    controllers := services.map ServiceUnit.controller }

end ApiClient.Run
