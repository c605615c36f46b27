import ApiClient.Yaml.Graph
import ApiClient.Yaml.Scalar

namespace ApiClient.Yaml

def maxDepth : Nat := 128

abbrev Following := StateT Nat Option

def Following.fail {α : Type} : Following α :=
  fun _ => none

def Following.of {α : Type} (a : Option α) : Following α :=
  fun n => a.map fun a => (a, n)

def Following.run {α : Type} (a : Following α) : Option α :=
  (StateT.run a 0).map Prod.fst

/-- The node itself, or what an alias refers to. There may be a hundred aliases to an event. -/
def Graph.follow (g : Graph) : Node → Following Node
  | .aliasOf number => fun followed =>
    if followed + 1 > g.size * 100 then none
    else (g.targets.lookup number).map fun n => (n, followed + 1)
  | n => pure n

def standardTag (name : String) : List Char :=
  ("tag:yaml.org,2002:" ++ name).toList

def isLocalTag (tag : Option (List Char)) : Bool :=
  (tag.bind List.head?) == some '!'

def FloatValue.toJson : FloatValue → Json
  | finite n => .number n
  | special => .null

/-- An integer that needs more than 64 bits is refused. -/
def integerJson? (cs : List Char) : Option (Option Json) :=
  match integer? cs with
  | none => none
  | some n => match integerRange n with
    | .word => some (some (.number (.integer n)))
    | .wide => some none
    | .beyond => none

def plainJson? (text : String) : Option Json :=
  if text.isEmpty ∨ isNullText text then some .null
  else match truth? text with
    | some b => some (.bool b)
    | none => match integerJson? text.toList with
      | some v => v
      | none =>
        if isZeroLed text.toList then some (.string text)
        else some (((float? text.toList).map FloatValue.toJson).getD (.string text))

/-- A scalar with a tag of the format is read as that tag says. -/
def scalarJson? (tag : Option (List Char)) (text : String) (style : Style) : Option Json :=
  match tag with
  | none => if style = .plain then plainJson? text else some (.string text)
  | some tag =>
    if isLocalTag tag then none
    else if tag = standardTag "bool" then (truth? text).map .bool
    else if tag = standardTag "int" then (integerJson? text.toList).join
    else if tag = standardTag "float" then (float? text.toList).map FloatValue.toJson
    else if tag = standardTag "null" then if isNullText text then some .null else none
    else some (.string text)

def Graph.keyText (g : Graph) (n : Node) : Following String := do
  match ← g.follow n with
  | .scalar _ text _ => pure text
  | _ => Following.fail

def Graph.valueOf (g : Graph) : Nat → Node → Following Json
  | depth, n => do
    match ← g.follow n with
    | .scalar tag text style => Following.of (scalarJson? tag text style)
    | .aliasOf _ => Following.fail
    | .sequence tag items =>
      match depth with
      | 0 => Following.fail
      | depth + 1 =>
        if isLocalTag tag then Following.fail
        else return .array (← items.mapM fun n => g.valueOf depth n)
    | .mapping tag entries =>
      match depth with
      | 0 => Following.fail
      | depth + 1 =>
        if isLocalTag tag then Following.fail
        else
          let entries ← entries.mapM fun (k, v) => do
            return (← g.keyText k, ← g.valueOf depth v)
          return .object (entries.foldl (fun es (k, v) => insertEntry k v es) [])

def json? (text : String) : Option Json := do
  let g ← graph? text
  match g.root with
  | none => some .null
  | some n => (g.valueOf maxDepth n).run

end ApiClient.Yaml
