import ApiClient.Config.Basic
import ApiClient.Json.Record

namespace ApiClient

open Json

def EnumStyle.ofJson? : Json → Option EnumStyle
  | .string s => ofText? s
  | .object [(key, .null)] => ofText? key
  | _ => none

def Config.ofJson? (v : Json) : Option Config := do
  let field ← v.fields? ["namespace", "enumStyle", "nullable", "isCamelCase", "dataFields",
    "apiPrefix", "requestLibPath"]
  let scope ← orDefault? default.scope string? (field "namespace")
  let enumStyle ← orDefault? default.enumStyle EnumStyle.ofJson? (field "enumStyle")
  let nullable ← orDefault? default.nullable bool? (field "nullable")
  let isCamelCase ← orDefault? default.isCamelCase bool? (field "isCamelCase")
  let dataFields ← orDefault? default.dataFields (listOf? string?) (field "dataFields")
  let apiPrefix ← optional? string? (field "apiPrefix")
  let requestLibPath ← orDefault? default.requestLibPath string? (field "requestLibPath")
  some { scope, enumStyle, nullable, isCamelCase, dataFields, apiPrefix, requestLibPath }

end ApiClient
