import ApiClient.Config.Basic
import ApiClient.Failure
import ApiClient.Yaml.Reader

namespace ApiClient

open Yaml

namespace Yaml

/-- Nothing at all where a value is due. -/
def Node.isBare : Node → Bool
  | .scalar _ text .plain => text.isEmpty
  | _ => false

def Graph.text (g : Graph) (n : Node) : Following String :=
  g.keyText n

/-- A truth value without quotes; a literal block needs the tag of truth values. -/
def Graph.truth (g : Graph) (n : Node) : Following Bool := do
  match ← g.follow n with
  | .scalar tag text style =>
    if style = .plain ∨ (style = .literal ∧ tag = some (standardTag "bool")) then
      Following.of (truth? text)
    else Following.fail
  | _ => Following.fail

def Graph.texts (g : Graph) (n : Node) : Following (List String) := do
  match ← g.follow n with
  | .sequence _ items => items.mapM g.text
  | n => if n.isBare then pure [] else Following.fail

def Graph.text? (g : Graph) (n : Node) : Following (Option String) := do
  match ← g.follow n with
  | .scalar tag text style =>
    if style ≠ .plain then pure (some text)
    else if tag = none then pure (if text.isEmpty ∨ isNullText text then none else some text)
    else if tag = some (standardTag "null") then
      if isNullText text then pure none else Following.fail
    else pure (some text)
  | _ => Following.fail

/-- One of some names: as a text, or as a local tag of nothing. -/
def Graph.name (g : Graph) (n : Node) : Following String := do
  match ← g.follow n with
  | .scalar tag text style =>
    if isLocalTag tag then
      if style = .plain ∧ (text.isEmpty ∨ isNullText text) then
        pure (String.ofList ((tag.getD []).drop 1))
      else Following.fail
    else pure text
  | _ => Following.fail

end Yaml

namespace Config

def setField (g : Graph) (c : Config) (key : String) (n : Node) : Following Config := do
  match key with
  | "namespace" => return { c with scope := ← g.text n }
  | "enumStyle" => return { c with enumStyle := ← Following.of (EnumStyle.ofText? (← g.name n)) }
  | "nullable" => return { c with nullable := ← g.truth n }
  | "isCamelCase" => return { c with isCamelCase := ← g.truth n }
  | "dataFields" => return { c with dataFields := ← g.texts n }
  | "apiPrefix" => return { c with apiPrefix := ← g.text? n }
  | "requestLibPath" => return { c with requestLibPath := ← g.text n }
  | _ => return c

def fieldNames : List String :=
  ["namespace", "enumStyle", "nullable", "isCamelCase", "dataFields", "apiPrefix",
    "requestLibPath"]

def setFields (g : Graph) (seen : List String) (c : Config) : List (Node × Node) → Following Config
  | [] => pure c
  | (k, n) :: rest => do
    let key ← g.keyText k
    if seen.contains key ∧ fieldNames.contains key then Following.fail
    else setFields g (key :: seen) (← c.setField g key n) rest

def ofNode (g : Graph) (n : Node) : Following Config := do
  match ← g.follow n with
  | .mapping _ entries => setFields g [] default entries
  | n => if n.isBare then pure default else Following.fail

def ofYaml? (text : String) : Option Config :=
  if Text.isBlankText text then some default
  else do
    let g ← graph? text
    match g.root with
    | none => some default
    | some n => (ofNode g n).run

def ofText (text : String) : Except Failure Config :=
  (ofYaml? text).elim (.error .yaml) .ok

def ofFile : Option String → Except Failure Config
  | none => .error .configFile
  | some text => (ofYaml? text).elim (.error .configText) .ok

end Config

end ApiClient
