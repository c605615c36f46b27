import ApiClient.Client.Generation
import ApiClient.Client.Printer
import ApiClient.CommandLine.Request
import ApiClient.Config.Text
import ApiClient.Document.Text
import ApiClient.Json.Printer
import ApiClient.Render.Report

namespace ApiClient.CommandLine

def wrongUse : Nat := 2

def failed : Nat := 1

structure Outcome where
  exit : Nat
  stdout : String
  storage : Storage

/-- The part of a command before anything is written: what it prints, and the client to render, if
the command renders one. -/
structure Draft where
  stdout : String
  result : Except Failure (Option (Config × Client))

def lines (l : List String) : String :=
  String.join (l.map (· ++ "\n"))

def styleName : EnumStyle → String
  | .stringLiteral => "StringLiteral"
  | .enum => "Enum"

namespace Request

def settings (r : Request) (read : String → Option String) : Except Failure Config := do
  let c ← match r.config with
    | some path => Config.ofFile (read path)
    | none => .ok Config.default
  return { c with
    scope := r.scope.getD c.scope
    enumStyle := r.enumStyle.getD c.enumStyle
    nullable := r.isNullable || c.nullable
    apiPrefix := r.apiPrefix.or c.apiPrefix
    dataFields := r.dataFields.getD c.dataFields
    requestLibPath := r.requestLibPath.getD c.requestLibPath }

def client (r : Request) (read : String → Option String) (c : Config) : Except Failure Client := do
  let document ← Document.ofFile r.spec (read r.spec)
  (Run.mk document c Overrides.none).client

def callLine (c : Call) : String :=
  "    " ++ c.method.toUpper ++ " " ++ c.path ++ " → " ++ c.functionName

def unitLines (u : ServiceUnit) : List String :=
  ("  • " ++ u.className ++ " (" ++ u.fileName ++ ".ts, " ++ toString u.operations.length ++
    " operations)") :: u.operations.map callLine

def summary (isVerbose : Bool) (c : Client) : List String :=
  ["", "✓ Parse successful!", "", "Summary:", "  Version: " ++ c.version,
    "  Namespace: " ++ c.scope, "  Units: " ++ toString c.services.length,
    "  Operations: " ++ toString c.callCount, "  Named types: " ++ toString c.interfaces.length,
    "  Vendor mappings: " ++ toString c.mappings.length] ++
  if isVerbose then ["", "Units:"] ++ c.services.flatMap unitLines else []

def settingLines (r : Request) (c : Config) : List String :=
  if r.isVerbose then
    ["  Namespace: " ++ c.scope, "  Enum style: " ++ styleName c.enumStyle,
      "  Request lib: " ++ c.requestLibPath, "  Output: " ++ r.output]
  else []

def renderingLines (c : Client) : List String :=
  ["✓ Parsed " ++ toString c.services.length ++ " units, " ++ toString c.callCount ++
    " operations, " ++ toString c.interfaces.length ++ " named types", "→ Rendering files..."]

def unitLine (root : String) (u : Render.UnitOutcome) : String :=
  match u.error with
  | none => "  ✓ " ++ joinPath root u.file
  | some error => "  ✗ " ++ joinPath root u.file ++ ": " ++ error

def reportLines (root : String) (report : Render.Report) : List String :=
  ["", "Generated files:"] ++ report.units.map (unitLine root) ++
    if report.isSuccess then ["", "✓ Generation complete!"] else []

/-- Settings are read before the first line is printed, unless files are generated. -/
def parseDraft (r : Request) (read : String → Option String) : Draft :=
  match r.settings read with
  | .error failure => ⟨"", .error failure⟩
  | .ok c =>
    let first := if r.asJson then [] else ["→ Parsing document: " ++ r.spec]
    match r.client read c with
    | .error failure => ⟨lines first, .error failure⟩
    | .ok client =>
      let more := if r.asJson then [client.toJson.pretty] else summary r.isVerbose client
      ⟨lines (first ++ more), .ok none⟩

def generateDraft (r : Request) (read : String → Option String) : Draft :=
  let first := ["→ Generating services from: " ++ r.spec]
  match r.settings read with
  | .error failure => ⟨lines first, .error failure⟩
  | .ok c =>
    let first := first ++ r.settingLines c ++ ["→ Parsing document..."]
    match r.client read c with
    | .error failure => ⟨lines first, .error failure⟩
    | .ok client => ⟨lines (first ++ renderingLines client), .ok (some (c, client))⟩

def draft (r : Request) (read : String → Option String) : Draft :=
  match r.action with
  | .parse => r.parseDraft read
  | .generate => r.generateDraft read

def exitCode (report : Render.Report) : Nat :=
  if report.isSuccess then 0 else failed

def run (r : Request) (storage : Storage) : Outcome :=
  let draft := r.draft storage.read?
  match draft.result with
  | .error _ => ⟨failed, draft.stdout, storage⟩
  | .ok none => ⟨0, draft.stdout, storage⟩
  | .ok (some (c, client)) =>
    match Render.renderToFolder c client r.output storage with
    | .error _ => ⟨failed, draft.stdout, storage⟩
    | .ok (report, storage) =>
      ⟨exitCode report, draft.stdout ++ lines (reportLines r.output report), storage⟩

end Request

def usage : String :=
  lines ["Generate TypeScript request services from OpenAPI documents", "",
    "Usage: api-client [-v] parse --spec <SPEC> [--json] [SETTINGS]",
    "       api-client [-v] generate --spec <SPEC> [--output <OUTPUT>] [SETTINGS]", "",
    "Settings:",
    "  -c, --config <CONFIG>                  Configuration file (YAML or JSON)",
    "      --namespace <NAMESPACE>            Namespace qualifying named types",
    "      --enum-style <ENUM_STYLE>          string-literal or enum",
    "      --nullable                         Render optional members as nullable",
    "      --api-prefix <API_PREFIX>          Prefix of every request path",
    "      --data-fields <DATA_FIELDS>        Comma-separated response envelope keys",
    "      --request-lib-path <PATH>          Module that request is imported from"]

def run (args : List String) (storage : Storage) : Outcome :=
  match Request.ofArguments false args with
  | .error .help => ⟨0, usage, storage⟩
  | .error .wrong => ⟨wrongUse, "", storage⟩
  | .ok r => r.run storage

end ApiClient.CommandLine
