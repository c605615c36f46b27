import ApiClient.Proofs.ResponseMarks
import ApiClient.Render.Typings

namespace ApiClient

structure WrittenMember where
  token : String
  mark : String
  type : String
deriving DecidableEq, Repr

def WrittenMember.text (m : WrittenMember) : String :=
  m.token ++ m.mark ++ ": " ++ m.type ++ ";"

namespace Text

theorem length_le_escape (quote : Char) (cs : List Char) :
    cs.length ≤ (escape quote cs).length := by
  induction cs with
  | nil => exact Nat.le_refl _
  | cons c rest ih =>
    rw [escape]
    split <;> simp only [List.length_cons] <;> omega

theorem escape_eq_self_iff {quote : Char} {cs : List Char} :
    escape quote cs = cs ↔ quote ∉ cs ∧ '\\' ∉ cs := by
  induction cs with
  | nil => simp [escape]
  | cons c rest ih =>
    by_cases hspecial : c = '\\' ∨ c = quote
    · rw [escape, if_pos hspecial]
      refine iff_of_false (fun heq => ?_) fun hplain => ?_
      · have hlength := congrArg List.length heq
        have hle := length_le_escape quote rest
        simp only [List.length_cons] at hlength
        omega
      · obtain rfl | rfl := hspecial
        · exact hplain.2 List.mem_cons_self
        · exact hplain.1 List.mem_cons_self
    · rw [escape, if_neg hspecial, List.cons_eq_cons, ih]
      rw [not_or] at hspecial
      simp [Ne.symm hspecial.1, Ne.symm hspecial.2]

/-- A name may stand between quotes as it is if it needs no escape. -/
theorem quoteKey_eq_iff (key : String) :
    "'" ++ key ++ "'" = quoteKey key ↔ '\'' ∉ key.toList ∧ '\\' ∉ key.toList := by
  rw [← escape_eq_self_iff, ← String.toList_inj]
  simp [quoteKey, quoted, eq_comm]

end Text

namespace NamedType

theorem memberName_eq_self {key : String} (h : ∀ c ∈ key.toList, c ≠ '[' ∧ c ≠ ']' ∧ c ≠ '|') :
    memberName key = key := by
  rw [memberName, List.filter_eq_self.2, String.ofList_toList]
  simpa using h

end NamedType

namespace Render

def blockMember (nullable : Bool) (p : Property) : WrittenMember :=
  { token := "'" ++ p.name ++ "'"
    mark := optionalMark nullable p.required
    type := p.type ++ nullUnion nullable p.required }

theorem memberLine_eq (nullable : Bool) (p : Property) :
    memberLine nullable p.required p.name p.type = "\n    " ++ (blockMember nullable p).text := by
  simp only [memberLine, WrittenMember.text, blockMember, String.append_assoc]
  rfl

theorem groupText_fields (nullable : Bool) (properties : List Property) :
    groupText nullable (.fields properties) = "\x7b" ++ String.join (properties.map fun p =>
      commentLine (propertyComment p) ++ "\n    " ++ (blockMember nullable p).text) ++ "\n  \x7d" := by
  have hlines : propertyText nullable = fun p =>
      commentLine (propertyComment p) ++ "\n    " ++ (blockMember nullable p).text := by
    funext p
    rw [propertyText, memberLine_eq, String.append_assoc]
  rw [groupText, hlines]

end Render

/-- An object that is typed by nothing but its properties, of which it has some. -/
structure Schema.IsPlainObject (s : Schema) : Prop where
  type : s.typeName? = some "object"
  format : s.format = none
  enum : s.enum = none
  allOf : s.allOf = []
  oneOf : s.oneOf = []
  anyOf : s.anyOf = []
  hasProperties : s.hasProperties = true

theorem Schema.IsPlainObject.form_eq {s : Schema} (hs : s.IsPlainObject) : s.form = .object := by
  have hnamed : ∀ names : List String, "object" ∉ names → s.isNamed names = false := by
    intro names hobject
    simpa [isNamed, hs.type, hs.format] using hobject
  have hnumber := hnamed numberNames (by decide)
  have hdate := hnamed dateNames (by decide)
  have hstring := hnamed stringNames (by decide)
  simp [form, hs.type, hs.enum, hnumber, hdate, hstring, hs.allOf, hs.oneOf, hs.anyOf]

variable [Text.Transliteration]

namespace Typing

/-- The member that the type of an object has for a property, in line with the others. -/
def lineMember (t : Typing) (parent : Schema) (member : String × SchemaNode) : WrittenMember :=
  let required := parent.isPropertyRequired member.1 member.2
  { token := Text.quoteKey member.1
    mark := if required || t.nullable then "" else "?"
    type := t.nodeType member.2 ++ if required || !t.nullable then "" else " | null" }

def lineMembers (t : Typing) (s : Schema) : List WrittenMember :=
  (s.properties.getD []).map (t.lineMember s)

/-- The members of the block that stands for an object in a named type. -/
def blockMembers (t : Typing) (s : Schema) : List WrittenMember :=
  (NamedType.propertiesOf t s).map (Render.blockMember t.nullable)

variable {t : Typing} {s : Schema}

theorem memberOf_eq (parent : Schema) (member : String × SchemaNode) :
    t.memberOf parent member = (t.lineMember parent member).text ++ " " := by
  cases hrequired : parent.isPropertyRequired member.1 member.2 <;> cases hnullable : t.nullable <;>
    simp [memberOf, memberText, lineMember, WrittenMember.text, hrequired, hnullable,
      String.append_assoc]

theorem nodeType_of_isPlainObject (hplain : t.override = Overrides.none.typeExpression)
    (hs : s.IsPlainObject) : t.nodeType (.schema s) =
      "\x7b " ++ String.join ((t.lineMembers s).map fun m => m.text ++ " ") ++ "\x7d" := by
  have hform := hs.form_eq
  have hmembers : s.members = s.properties.getD [] := if_pos hform
  have hsome : (s.members.map (t.memberOf s)).isEmpty = false := by
    have hproperties := hs.hasProperties
    rw [hmembers]
    cases hps : s.properties with
    | none => simp [Schema.hasProperties, hps] at hproperties
    | some ps => simpa [Schema.hasProperties, hps] using hproperties
  rw [nodeType_schema hplain, schemaType_object hform, objectOf, hsome, hmembers, lineMembers,
    List.map_map]
  simp only [Bool.false_eq_true, if_false, Function.comp_def, ← memberOf_eq]

theorem ofNode_of_isPlainObject (d : Document) (style : EnumStyle) (hs : s.IsPlainObject) :
    NamedType.ofNode d t style (.schema s) =
      .ok (.ofGroups [.fields (NamedType.propertiesOf t s)]) := by
  simp [NamedType.ofNode, NamedType.ownGroup, hs.enum, hs.allOf, hs.hasProperties]

theorem blockMembers_eq (t : Typing) (s : Schema) :
    t.blockMembers s = (s.properties.getD []).map fun member =>
      { t.lineMember s member with token := "'" ++ NamedType.memberName member.1 ++ "'" } := by
  rw [blockMembers, NamedType.propertiesOf, List.map_map]
  refine List.map_congr_left fun member _ => ?_
  cases hrequired : s.isPropertyRequired member.1 member.2 <;> cases hnullable : t.nullable <;>
    simp [Render.blockMember, Render.optionalMark, Render.nullUnion, lineMember, hrequired,
      hnullable]

/-- The block of a plain object and the line of it have the same members, with the same marks and
types, and write the same names exactly when no name has a quote or a backslash. -/
theorem blockMembers_eq_lineMembers_iff (d : Document) (t : Typing) (style : EnumStyle)
    (hplain : t.override = Overrides.none.typeExpression) (s : Schema) (hs : s.IsPlainObject)
    (hkeys : ∀ member ∈ s.properties.getD [], ∀ c ∈ member.1.toList, c ≠ '[' ∧ c ≠ ']' ∧ c ≠ '|') :
    NamedType.ofNode d t style (.schema s) =
      .ok (.ofGroups [.fields (NamedType.propertiesOf t s)]) ∧
    Render.groupText t.nullable (.fields (NamedType.propertiesOf t s)) =
      "\x7b" ++ String.join ((NamedType.propertiesOf t s).map fun p =>
        Render.commentLine (Render.propertyComment p) ++ "\n    " ++
          (Render.blockMember t.nullable p).text) ++ "\n  \x7d" ∧
    t.nodeType (.schema s) =
      "\x7b " ++ String.join ((t.lineMembers s).map fun m => m.text ++ " ") ++ "\x7d" ∧
    (t.blockMembers s).map (fun m => (m.mark, m.type)) =
      (t.lineMembers s).map (fun m => (m.mark, m.type)) ∧
    (t.blockMembers s = t.lineMembers s ↔
      ∀ member ∈ s.properties.getD [], '\'' ∉ member.1.toList ∧ '\\' ∉ member.1.toList) := by
  refine ⟨ofNode_of_isPlainObject d style hs, Render.groupText_fields _ _,
    nodeType_of_isPlainObject hplain hs, ?_, ?_⟩
  · rw [blockMembers_eq, lineMembers, List.map_map, List.map_map]
    rfl
  · rw [blockMembers_eq, lineMembers, List.map_inj_left]
    refine forall₂_congr fun member hmember => ?_
    rw [NamedType.memberName_eq_self (hkeys member hmember), ← Text.quoteKey_eq_iff]
    constructor
    · exact fun heq => congrArg WrittenMember.token heq
    · intro htoken
      rw [htoken]
      rfl

end Typing

end ApiClient

namespace ApiClient.Typing

def pairSchema (key : String) : Schema :=
  { Schema.ofType "object" with
    properties := some [("id", .schema (Schema.ofType "integer")),
      (key, .schema (Schema.ofType "string"))]
    required := some (.listed ["id"]) }

theorem pairSchema_isPlainObject (key : String) : (pairSchema key).IsPlainObject :=
  ⟨rfl, rfl, rfl, rfl, rfl, rfl, rfl⟩

def nullableTyping : Typing :=
  { plain "API" with nullable := true }

def emptyDocument : Document :=
  (Run.ofTree .default (documentTree [] []) (by decide +kernel)).document

theorem pairSchema_members :
    nullableTyping.lineMembers (pairSchema "nick-name") =
      [⟨"'id'", "", "number"⟩, ⟨"'nick-name'", "", "string | null"⟩] ∧
    nullableTyping.blockMembers (pairSchema "nick-name") =
      nullableTyping.lineMembers (pairSchema "nick-name") := by
  have hkeys : ∀ member ∈ (pairSchema "nick-name").properties.getD [], ∀ c ∈ member.1.toList,
      c ≠ '[' ∧ c ≠ ']' ∧ c ≠ '|' := by simp [pairSchema]
  have hplain : ∀ member ∈ (pairSchema "nick-name").properties.getD [],
      '\'' ∉ member.1.toList ∧ '\\' ∉ member.1.toList := by decide
  obtain ⟨-, -, -, -, hagree⟩ := blockMembers_eq_lineMembers_iff emptyDocument nullableTyping
    .stringLiteral rfl (pairSchema "nick-name") (pairSchema_isPlainObject _) hkeys
  exact ⟨by decide +kernel, hagree.2 hplain⟩

theorem not_blockMembers_eq_lineMembers : ¬ ∀ (t : Typing) (s : Schema),
    t.override = Overrides.none.typeExpression → s.IsPlainObject →
    (∀ member ∈ s.properties.getD [], ∀ c ∈ member.1.toList, c ≠ '[' ∧ c ≠ ']' ∧ c ≠ '|') →
      t.blockMembers s = t.lineMembers s := by
  intro agree
  have hkeys : ∀ member ∈ (pairSchema "it's").properties.getD [], ∀ c ∈ member.1.toList,
      c ≠ '[' ∧ c ≠ ']' ∧ c ≠ '|' := by simp [pairSchema]
  exact absurd (agree (plain "API") (pairSchema "it's") rfl (pairSchema_isPlainObject _) hkeys)
    (by decide +kernel)

end ApiClient.Typing
