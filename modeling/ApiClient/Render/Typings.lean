import ApiClient.Client.Basic
import ApiClient.Render.Member

namespace ApiClient.Render

def propertyComment (p : Property) : String :=
  if p.description.isEmpty then ""
  else
    match p.format with
    | none => p.description
    | some format =>
      if format.isEmpty then p.description else p.description ++ " (" ++ format ++ ")"

def propertyText (nullable : Bool) (p : Property) : String :=
  commentLine (propertyComment p) ++ memberLine nullable p.required p.name p.type

def groupText (nullable : Bool) : PropertyGroup → String
  | .inherited typeName => typeName
  | .fields properties =>
    "\x7b" ++ String.join (properties.map (propertyText nullable)) ++ "\n  \x7d"

def interfaceText (nullable : Bool) (i : Interface) : String :=
  if i.isEnum then "\n\n  enum " ++ i.typeName ++ " " ++ i.type
  else if i.props.isEmpty then "\n\n  type " ++ i.typeName ++ " = " ++ i.type ++ ";"
  else
    "\n\n  type " ++ i.typeName ++ " = " ++
      " & ".intercalate (i.props.map (groupText nullable)) ++ ";"

def typings (nullable : Bool) (c : Client) : String :=
  "// @ts-ignore\n/* eslint-disable */\n\ndeclare namespace " ++ c.scope ++ " \x7b" ++
    String.join (c.interfaces.map (interfaceText nullable)) ++ "\n\x7d\n"

end ApiClient.Render
