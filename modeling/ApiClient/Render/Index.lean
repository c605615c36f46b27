import ApiClient.Client.Basic

namespace ApiClient.Render

def importLine (c : Controller) : String :=
  "import * as " ++ c.controllerName ++ " from './" ++ c.fileName ++ "';\n"

def exportLine (c : Controller) : String :=
  "\n  " ++ c.controllerName ++ ","

def index (c : Client) : String :=
  "// @ts-ignore\n/* eslint-disable */\n// API " ++ c.version ++ "\n" ++
    String.join (c.controllers.map importLine) ++ "\nexport default \x7b" ++
    String.join (c.controllers.map exportLine) ++ "\n\x7d;\n"

end ApiClient.Render
