import ApiClient.Client.Basic
import ApiClient.Config.Basic
import ApiClient.Document.Reference
import ApiClient.Typing.Expression

namespace ApiClient

/-- What a named type stands for. Without a `type` it is described by its groups. -/
structure NamedType where
  type : Option String
  groups : List PropertyGroup
  isEnum : Bool
deriving DecidableEq, Repr

variable [Text.Transliteration]

namespace NamedType

def synonym (type : String) : NamedType :=
  ⟨some type, [], false⟩

def ofGroups (groups : List PropertyGroup) : NamedType :=
  ⟨none, groups, false⟩

def isIdentifierStart (c : Char) : Bool :=
  c.isAlpha || c == '_' || c == '$'

def isIdentifierChar (c : Char) : Bool :=
  c.isAlphanum || c == '_' || c == '$'

def enumKey (value : String) : String :=
  match value.toList with
  | [] => Text.quoteLiteral value
  | c :: rest =>
    if isIdentifierStart c && rest.all isIdentifierChar then value else Text.quoteLiteral value

def enumMember? : EnumEntry → Option (String × String)
  | .scalar (.string s) => some (enumKey s, Text.quoteLiteral s)
  | .scalar (.number n) => some (Text.quoteLiteral n.text, n.text)
  | .scalar (.bool b) =>
    let text := if b then "true" else "false"
    some (Text.quoteLiteral text, text)
  | _ => none

def firstOfKey : List (String × String) → List (String × String)
  | [] => []
  | (key, literal) :: rest =>
    (key, literal) :: (firstOfKey rest).filter fun entry => entry.1 ≠ key

def enumBody (entries : List EnumEntry) : String :=
  let members := firstOfKey (entries.filterMap enumMember?)
  "\x7b" ++ ",".intercalate (members.map fun (key, literal) => key ++ "=" ++ literal) ++ "\x7d"

def ofEnum (t : Typing) (style : EnumStyle) (entries : List EnumEntry) : NamedType :=
  match style with
  | .stringLiteral => synonym (Typing.enumUnion (t.literals entries))
  | .enum => ⟨some (enumBody entries), [], true⟩

def propertyDescription (node : SchemaNode) : String :=
  match node.schema? with
  | some s => " ".intercalate (s.title.toList ++ s.description.toList)
  | none => ""

/-- A property key without the characters that the name of a member may not have. -/
def memberName (key : String) : String :=
  String.ofList (key.toList.filter fun c => c ≠ '[' ∧ c ≠ ']' ∧ c ≠ '|')

def propertiesOf (t : Typing) (s : Schema) : List Property :=
  (s.properties.getD []).map fun (key, node) =>
    { name := memberName key
      type := t.nodeType node
      description := propertyDescription node
      required := s.isPropertyRequired key node
      format := node.schema?.bind Schema.format }

def ownGroup (t : Typing) (s : Schema) : List PropertyGroup :=
  if s.hasProperties then [.fields (propertiesOf t s)] else []

/-- The group of one inherited schema; what has no properties gives none. -/
def inheritedGroup (d : Document) (t : Typing) :
    SchemaNode → Except Failure (List PropertyGroup)
  | .reference path => do
    let _ ← d.resolve path
    return [.inherited (Naming.referenceTypeName path)]
  | .schema s => .ok [.fields (propertiesOf t s)]
  | _ => .ok []

/-- The type of a named array: only a referenced item type is kept. -/
def arrayAlias : Option Items → String
  | some (.single (.reference path)) => Naming.referenceTypeName path ++ "[]"
  | _ => "any[]"

/-- What a schema node stands for as a named type. A dangling reference fails here. -/
def ofNode (d : Document) (t : Typing) (style : EnumStyle) (node : SchemaNode) :
    Except Failure NamedType :=
  match node with
  | .reference path => do
    let _ ← d.resolve path
    return synonym (Naming.referenceTypeName path)
  | .schema s =>
    match s.enum with
    | some entries => .ok (ofEnum t style entries)
    | none =>
      if !s.allOf.isEmpty then do
        let groups ← s.allOf.mapM (inheritedGroup d t)
        return ofGroups (groups.flatten ++ ownGroup t s)
      else if s.hasProperties then .ok (ofGroups (ownGroup t s))
      else if s.typeName? = some "array" then .ok (synonym (arrayAlias s.items))
      else .ok (synonym (t.nodeType node))
  | node => .ok (synonym (t.nodeType node))

def parents (groups : List PropertyGroup) : List String :=
  groups.filterMap fun
    | .inherited typeName => some typeName
    | .fields _ => none

def toInterface (name : String) (n : NamedType) : Interface :=
  { typeName := Naming.typeName name
    type := n.type.getD Typing.anyRecord
    parentGroups := parents n.groups
    props := n.groups
    isEnum := n.isEnum }

end NamedType

def Document.interfaces (d : Document) (t : Typing) (style : EnumStyle) :
    Except Failure (List Interface) :=
  ((d.spec.components.map (·.schemas)).getD []).mapM fun (name, node) => do
    let named ← NamedType.ofNode d t style node
    return named.toInterface name

end ApiClient
