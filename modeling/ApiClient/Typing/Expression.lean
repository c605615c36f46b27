import ApiClient.Json.Number
import ApiClient.Naming.TypeName
import ApiClient.Text.Blank
import ApiClient.Text.Quoted
import ApiClient.Typing.Brackets
import ApiClient.Typing.Form

namespace ApiClient

def nonBlank (answer : Option String) : Option String :=
  answer.filter fun s => !Text.isBlankText s

/-- The members of a list without repetitions, in order of first occurrence. -/
def distinct {α : Type} [DecidableEq α] : List α → List α
  | [] => []
  | a :: rest => a :: (distinct rest).filter (· ≠ a)

/-- How types are written: the namespace of names, whether optional members are written with
`null`, and an override. The override sees a node, the namespace and the type the node would have. -/
structure Typing where
  scope : String
  nullable : Bool
  override : Option SchemaNode → String → String → Option String

namespace Typing

def any : String := "any"

def anyRecord : String := "Record<string, any>"

def plain (scope : String) : Typing :=
  ⟨scope, false, fun _ _ _ => none⟩

def qualify (t : Typing) (name : String) : String :=
  if t.scope.isEmpty then name else t.scope ++ "." ++ name

def settle (t : Typing) (node : Option SchemaNode) (usual : String) : String :=
  (nonBlank (t.override node t.scope usual)).getD usual

def scalarLiteral : Json → String
  | .string s => Text.quoteLiteral s
  | .number n => n.text
  | .bool b => if b then "true" else "false"
  | _ => any

def unionOf (members : List String) : String :=
  " | ".intercalate members

def enumUnion (literals : List String) : String :=
  if literals.isEmpty then any else unionOf (distinct literals)

def memberText (nullable required : Bool) (key type : String) : String :=
  if required then Text.quoteKey key ++ ": " ++ type ++ "; "
  else if nullable then Text.quoteKey key ++ ": " ++ type ++ " | null; "
  else Text.quoteKey key ++ "?: " ++ type ++ "; "

def arrayOf (item : String) : String :=
  if joins item then "(" ++ item ++ ")[]" else item ++ "[]"

variable [Text.Transliteration]

mutual

def nodeType (t : Typing) : SchemaNode → String
  | .reference path =>
    t.settle (some (.reference path)) (t.qualify (Naming.referenceTypeName path))
  | .literal text => t.settle (some (.literal text)) text
  | .schema s => t.settle (some (.schema s)) (schemaType t s)
  | .other v => t.settle (some (.other v)) any

def schemaType (t : Typing) : Schema → String
  | s@⟨_, _, _, _, properties, _, items, enum, allOf, oneOf, anyOf, _⟩ =>
    match s.form with
    | .null => "null"
    | .enumeration =>
      match enum with
      | some entries => enumUnion (literals t entries)
      | none => any
    | .number => "number"
    | .date => "Date"
    | .string => "string"
    | .boolean => "boolean"
    | .array =>
      match items with
      | some i => itemsType t i
      | none => any ++ "[]"
    | .union => unionOf (nodeTypes t oneOf ++ nodeTypes t anyOf)
    | .intersection => "(" ++ " & ".intercalate (nodeTypes t allOf) ++ ")"
    | .object =>
      match properties with
      | some (p :: ps) => "\x7b " ++ memberTexts t s (p :: ps) ++ "\x7d"
      | _ => anyRecord
    | .any => any

def itemsType (t : Typing) : Items → String
  | .tuple members => "[" ++ ", ".intercalate (nodeTypes t members) ++ "]"
  | .single item => arrayOf (nodeType t item)

def nodeTypes (t : Typing) : List SchemaNode → List String
  | [] => []
  | node :: rest => nodeType t node :: nodeTypes t rest

def memberTexts (t : Typing) (parent : Schema) : List (String × SchemaNode) → String
  | [] => ""
  | (key, node) :: rest =>
    memberText t.nullable (parent.isPropertyRequired key node) key (nodeType t node) ++
      memberTexts t parent rest

def literals (t : Typing) : List EnumEntry → List String
  | [] => []
  | .scalar v :: rest => scalarLiteral v :: literals t rest
  | .composite _ reading :: rest => nodeType t reading :: literals t rest

end

/-- The form of a schema decides which of its keywords its type is written from. -/
theorem schemaType_eq (t : Typing) (s : Schema) : t.schemaType s =
    match s.form with
    | .null => "null"
    | .enumeration => (s.enum.map fun entries => enumUnion (t.literals entries)).getD any
    | .number => "number"
    | .date => "Date"
    | .string => "string"
    | .boolean => "boolean"
    | .array => (s.items.map t.itemsType).getD (any ++ "[]")
    | .union => unionOf (t.nodeTypes s.oneOf ++ t.nodeTypes s.anyOf)
    | .intersection => "(" ++ " & ".intercalate (t.nodeTypes s.allOf) ++ ")"
    | .object =>
      match s.properties with
      | some (p :: ps) => "\x7b " ++ t.memberTexts s (p :: ps) ++ "\x7d"
      | _ => anyRecord
    | .any => any := by
  obtain ⟨type, format, title, description, properties, required, items, enum, allOf, oneOf, anyOf,
    extensions⟩ := s
  rw [schemaType.eq_def]
  dsimp only
  generalize Schema.form _ = form
  cases form with
  | enumeration => cases enum <;> rfl
  | array => cases items <;> rfl
  | object =>
    cases properties with
    | none => rfl
    | some ps => cases ps <;> rfl
  | _ => rfl

def expression (t : Typing) : Option SchemaNode → String
  | none => t.settle none any
  | some node => t.nodeType node

end Typing

end ApiClient
