import ApiClient.Proofs.Runs

namespace ApiClient

/-- An answer that leaves the matter to the usual rule. -/
def Declines (answer : Option String) : Prop :=
  ∀ s ∈ answer, Text.isBlankText s = true

theorem nonBlank_of_declines {answer : Option String} (h : Declines answer) :
    nonBlank answer = none := by
  rw [nonBlank, Option.filter_eq_none_iff]
  intro s hs
  simp [h s hs]

namespace Typing

variable [Text.Transliteration] {t : Typing}

def usualType (t : Typing) : Option SchemaNode → String
  | none => any
  | some (.reference path) => t.qualify (Naming.referenceTypeName path)
  | some (.literal text) => text
  | some (.schema s) => t.schemaType s
  | some (.other _) => any

theorem nodeType_eq_settle (t : Typing) (node : SchemaNode) :
    t.nodeType node = t.settle (some node) (t.usualType (some node)) := by
  cases node <;> rw [nodeType] <;> rfl

/-- The override has nothing to say of a node but the type that the node would have anyway. Only the
types of this typing count, so an answer may be made from those of other nodes. -/
def Defers (t : Typing) : Prop :=
  ∀ node, Declines (t.override node t.scope (t.usualType node)) ∨
    t.override node t.scope (t.usualType node) = some (t.usualType node)

def withoutOverride (t : Typing) : Typing :=
  { t with override := fun _ _ _ => none }

theorem Defers.settle_usualType (h : t.Defers) (node : Option SchemaNode) :
    t.settle node (t.usualType node) = t.usualType node := by
  rw [settle]
  obtain hdeclines | hsame := h node
  · rw [nonBlank_of_declines hdeclines]
    rfl
  · rw [hsame, nonBlank]
    cases hblank : Text.isBlankText (t.usualType node) <;> simp [Option.filter, hblank]

mutual

theorem Defers.nodeType_eq (h : t.Defers) :
    ∀ node : SchemaNode, t.nodeType node = t.withoutOverride.nodeType node
  | .schema s => by
    rw [nodeType_eq_settle, h.settle_usualType, nodeType]
    exact h.schemaType_eq s
  | .reference _ | .literal _ | .other _ => by
    rw [nodeType_eq_settle, h.settle_usualType, nodeType]
    rfl

theorem Defers.schemaType_eq (h : t.Defers) :
    ∀ s : Schema, t.schemaType s = t.withoutOverride.schemaType s
  | ⟨type, format, title, description, properties, required, items, enum, allOf, oneOf, anyOf,
      extensions⟩ => by
    rw [Typing.schemaType_eq, Typing.schemaType_eq]
    dsimp only
    generalize Schema.form _ = form
    cases form with
    | enumeration =>
      cases enum with
      | none => rfl
      | some entries => exact congrArg enumUnion (h.literals_eq entries)
    | array =>
      cases items with
      | none => rfl
      | some i => exact h.itemsType_eq i
    | union => dsimp only; rw [h.nodeTypes_eq oneOf, h.nodeTypes_eq anyOf]
    | intersection => dsimp only; rw [h.nodeTypes_eq allOf]
    | object =>
      cases properties with
      | none => rfl
      | some ps =>
        cases ps with
        | nil => rfl
        | cons p ps => dsimp only; rw [h.memberTexts_eq _ (p :: ps)]
    | _ => rfl

theorem Defers.itemsType_eq (h : t.Defers) :
    ∀ i : Items, t.itemsType i = t.withoutOverride.itemsType i
  | .tuple members => by rw [itemsType, itemsType, h.nodeTypes_eq members]
  | .single item => by rw [itemsType, itemsType, h.nodeType_eq item]

theorem Defers.nodeTypes_eq (h : t.Defers) :
    ∀ nodes : List SchemaNode, t.nodeTypes nodes = t.withoutOverride.nodeTypes nodes
  | [] => rfl
  | node :: rest => by rw [nodeTypes, nodeTypes, h.nodeType_eq node, h.nodeTypes_eq rest]

theorem Defers.memberTexts_eq (h : t.Defers) (parent : Schema) :
    ∀ ps : List (String × SchemaNode),
      t.memberTexts parent ps = t.withoutOverride.memberTexts parent ps
  | [] => rfl
  | (key, node) :: rest => by
    rw [memberTexts, memberTexts, h.nodeType_eq node, h.memberTexts_eq parent rest]
    rfl

theorem Defers.literals_eq (h : t.Defers) :
    ∀ entries : List EnumEntry, t.literals entries = t.withoutOverride.literals entries
  | [] => rfl
  | .scalar v :: rest => by rw [literals, literals, h.literals_eq rest]
  | .composite _ reading :: rest => by
    rw [literals, literals, h.nodeType_eq reading, h.literals_eq rest]

end

end Typing

section Types

variable [Text.Transliteration] {t t' : Typing} (hnode : t.nodeType = t'.nodeType)
include hnode

namespace Endpoint

theorem toParam_congr (d : Document) : toParam d t = toParam d t' := by
  funext p
  simp only [toParam, parameterType, hnode]

theorem params_congr (d : Document) (e : Endpoint) : e.params d t = e.params d t' := by
  simp only [params, toParam_congr hnode d]

theorem body_congr (d : Document) (e : Endpoint) : e.body d t = e.body d t' := by
  have hshape : bodyShape t = bodyShape t' := by
    funext node resolved
    simp only [bodyShape, bodyProperties, hnode]
  simp only [body, hshape]

theorem response_congr (d : Document) (e : Endpoint) (dataFields : List String) :
    e.response d t dataFields = e.response d t' dataFields := by
  have hresponse : responseOf d t dataFields = responseOf d t' dataFields := by
    funext r
    simp only [responseOf, hnode]
  simp only [response, hresponse]

end Endpoint

theorem Document.interfaces_congr (hliterals : t.literals = t'.literals) (d : Document)
    (style : EnumStyle) : d.interfaces t style = d.interfaces t' style := by
  have hproperties : NamedType.propertiesOf t = NamedType.propertiesOf t' := by
    funext s
    simp only [NamedType.propertiesOf, hnode]
  have hinherited : NamedType.inheritedGroup d t = NamedType.inheritedGroup d t' := by
    funext node
    cases node <;> simp only [NamedType.inheritedGroup, hproperties]
  have hnamed : NamedType.ofNode d t style = NamedType.ofNode d t' style := by
    funext node
    cases node <;> simp only [NamedType.ofNode, NamedType.ofEnum, NamedType.ownGroup, hnode,
      hliterals, hproperties, hinherited]
  simp only [interfaces, hnamed]

end Types

namespace Run

variable [Text.Transliteration]

/-- All answers decline, or say of a type what it is anyway. Declining tags are all blank, and
options have no blank answer. -/
structure Defers (r : Run) : Prop where
  tags : ∀ e, ∀ tags ∈ r.overrides.tags e, ∀ tag ∈ tags, Text.isBlankText tag = true
  functionName : ∀ e, Declines (r.overrides.functionName e)
  typeName : ∀ e functionName, Declines (r.overrides.typeName e functionName)
  className : ∀ tag, Declines (r.overrides.className tag)
  fileName : ∀ tag, Declines (r.overrides.fileName tag)
  types : r.typing.Defers
  options : ∀ e, r.overrides.options e = none
  apiPrefix : ∀ context, Declines (r.overrides.apiPrefix context)

def withoutOverrides (r : Run) : Run :=
  { r with overrides := .none }

namespace Defers

variable {r : Run} (h : r.Defers)
include h

theorem groups_eq : r.groups = r.withoutOverrides.groups := by
  have hnone : ∀ e, nonBlankTexts ((r.overrides.tags e).getD []) = [] := by
    intro e
    rw [nonBlankTexts, List.filter_eq_nil_iff]
    intro tag htag
    cases htags : r.overrides.tags e with
    | none =>
      rw [htags] at htag
      cases htag
    | some tags =>
      rw [htags] at htag
      simp [h.tags e tags htags tag htag]
  have hraw : Endpoint.rawTags r.overrides = Endpoint.rawTags .none := by
    funext e
    simp only [Endpoint.rawTags, hnone, Overrides.none, Option.getD_none]
    rfl
  have htags : Endpoint.tags r.config r.overrides = Endpoint.tags r.config .none := by
    funext e
    rw [Endpoint.tags, Endpoint.tags, hraw]
  have hmembers : ∀ tag, r.document.spec.members r.config r.overrides tag =
      r.document.spec.members r.config .none tag := by
    intro tag
    rw [ApiSpec.members, ApiSpec.members, htags]
  rw [groups, groups, ApiSpec.groups_eq, ApiSpec.groups_eq, htags]
  simp only [hmembers]
  rfl

theorem shape_eq (e : Endpoint) : r.shape e = r.withoutOverrides.shape e := by
  have hnode : r.typing.nodeType = r.withoutOverrides.typing.nodeType := funext h.types.nodeType_eq
  rw [shape, shape, Endpoint.params_congr hnode, Endpoint.body_congr hnode,
    Endpoint.response_congr hnode]
  rfl

theorem functionName_eq (e : Endpoint) : r.functionName e = r.withoutOverrides.functionName e := by
  rw [Run.functionName, nonBlank_of_declines (h.functionName e)]
  rfl

theorem callPart_eq (tag : String) (e : Endpoint) (s : CallShape)
    (functionName description : String) (names : ParamsTypeNames) :
    r.callPart tag e s functionName description names =
      r.withoutOverrides.callPart tag e s functionName description names := by
  have htypeName : r.paramsTypeName e functionName =
      r.withoutOverrides.paramsTypeName e functionName := by
    rw [paramsTypeName, nonBlank_of_declines (h.typeName e functionName)]
    rfl
  have hprefix : applyPrefix r.config r.overrides = applyPrefix r.config .none := by
    funext context
    rw [applyPrefix, nonBlank_of_declines (h.apiPrefix context)]
    rfl
  simp only [callPart, nameParams, htypeName, hprefix, h.options e]
  rfl

theorem tagParts_eq (tag : String) (used : NameCounts) (names : ParamsTypeNames)
    (es : List Endpoint) :
    r.tagParts tag used names es = r.withoutOverrides.tagParts tag used names es := by
  induction es generalizing used names with
  | nil => rfl
  | cons e rest ih =>
    rw [tagParts, tagParts, h.functionName_eq e, h.shape_eq e]
    simp only [h.callPart_eq, ih]
    rfl

theorem allCalls_eq (index : Nat) (names : ParamsTypeNames)
    (groups : List (String × List Endpoint)) :
    r.allCalls index names groups = r.withoutOverrides.allCalls index names groups := by
  induction groups generalizing index names with
  | nil => rfl
  | cons group rest ih =>
    obtain ⟨tag, es⟩ := group
    rw [allCalls, allCalls, tagCalls, tagCalls, h.tagParts_eq]
    simp only [ih]

theorem serviceUnits_eq (calls : List (Nat × String × TagCalls)) :
    r.serviceUnits calls = r.withoutOverrides.serviceUnits calls := by
  have hunit : r.serviceUnit = r.withoutOverrides.serviceUnit := by
    funext index tag calls
    simp only [serviceUnit, Run.fileName, nonBlank_of_declines (h.className tag),
      nonBlank_of_declines (h.fileName tag)]
    rfl
  rw [serviceUnits, serviceUnits, hunit]

end Defers

/-- Overrides that defer are invisible: client or failure, the result is the one without them. -/
theorem client_withoutOverrides (r : Run) (h : r.Defers) :
    r.client = Run.client { r with overrides := .none } := by
  have hnode : r.typing.nodeType = r.withoutOverrides.typing.nodeType := funext h.types.nodeType_eq
  have hliterals : r.typing.literals = r.withoutOverrides.typing.literals :=
    funext h.types.literals_eq
  change r.client = r.withoutOverrides.client
  rw [client, client, h.groups_eq, Document.interfaces_congr hnode hliterals]
  simp only [h.allCalls_eq, h.serviceUnits_eq]
  rfl

end Run

end ApiClient

namespace ApiClient.Run

/-- Blank answers, and types given back, of which one is blank itself. -/
def deferringRun : Run where
  document := (ofTree .default (documentTree
    [("/pets", .object [("get", operationTree "list" ["pets"] ["name"])])]
    [("Pet", .object [("type", .string "object"), ("properties", .object [
      ("note", .string " "), ("age", .object [("type", .string "integer")]),
      ("owner", .object [("$ref", .string "#/components/schemas/Pet")])])])])
    (by decide +kernel)).document
  config := .default
  overrides := {
    tags := fun _ => some [" ", ""]
    functionName := fun _ => some ""
    typeName := fun _ functionName => if functionName = "list" then some "\t" else none
    className := fun _ => some " "
    fileName := fun _ => none
    typeExpression := fun node _ usual =>
      if (node.bind SchemaNode.reference?).isSome then some " " else node.map fun _ => usual
    options := fun _ => none
    apiPrefix := fun _ => some " \n" }

theorem deferringRun_client : deferringRun.Defers ∧
    deferringRun.client = Run.client { deferringRun with overrides := .none } := by
  have hblank (s : String) (h : Text.isBlankText s = true) : Declines (some s) :=
    fun _ hs => Option.some.inj hs ▸ h
  have hnone : Declines none := nofun
  have hdefers : deferringRun.Defers := by
    constructor
    case tags =>
      intro e tags htags tag htag
      cases htags
      revert tag
      decide
    case functionName => exact fun _ => hblank "" (by decide)
    case typeName =>
      intro _ functionName
      change Declines (if functionName = "list" then some "\t" else none)
      split
      · exact hblank _ (by decide)
      · exact hnone
    case className => exact fun _ => hblank " " (by decide)
    case fileName => exact fun _ => hnone
    case types =>
      rintro (_ | path | text | s | v)
      · exact .inl hnone
      · exact .inl (hblank " " (by decide))
      · exact .inr rfl
      · exact .inr rfl
      · exact .inr rfl
    case options => exact fun _ => rfl
    case apiPrefix => exact fun _ => hblank " \n" (by decide)
  exact ⟨hdefers, client_withoutOverrides deferringRun hdefers⟩

end ApiClient.Run
