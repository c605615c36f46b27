import ApiClient.Proofs.SchemaReferences

namespace ApiClient

section Shrinking

variable {ι : Type} {f g : ι → String} {l : List ι}

theorem length_join_le (h : ∀ i ∈ l, (f i).length ≤ (g i).length) :
    (String.join (l.map f)).length ≤ (String.join (l.map g)).length := by
  induction l with
  | nil => exact Nat.le_refl _
  | cons i l ih =>
    obtain ⟨hi, hl⟩ := List.forall_mem_cons.1 h
    simp only [List.map_cons, String.join_cons, String.length_append]
    exact Nat.add_le_add hi (ih hl)

theorem join_eq_join_iff (h : ∀ i ∈ l, (f i).length ≤ (g i).length) :
    String.join (l.map f) = String.join (l.map g) ↔ ∀ i ∈ l, f i = g i := by
  induction l with
  | nil => simp
  | cons i l ih =>
    obtain ⟨hi, hl⟩ := List.forall_mem_cons.1 h
    rw [List.forall_mem_cons, ← ih hl, List.map_cons, List.map_cons, String.join_cons,
      String.join_cons]
    constructor
    · intro heq
      have hlength := congrArg String.length heq
      rw [String.length_append, String.length_append] at hlength
      have hrest := length_join_le hl
      have hlists := congrArg String.toList heq
      rw [String.toList_append, String.toList_append] at hlists
      obtain ⟨hhead, htail⟩ := List.append_inj hlists (by
        rw [String.length_toList, String.length_toList]
        omega)
      exact ⟨String.toList_inj.1 hhead, String.toList_inj.1 htail⟩
    · rintro ⟨hhead, htail⟩
      rw [hhead, htail]

end Shrinking

/-- The properties that the type of a schema lists as its members. -/
def Schema.members (s : Schema) : List (String × SchemaNode) :=
  if s.form = .object then s.properties.getD [] else []

namespace SchemaNode

/-- Whether all members that the type of a node lists are required. -/
def requiresAll : SchemaNode → Bool
  | .schema s => s.members.all fun (key, node) => s.isPropertyRequired key node
  | _ => true

/-- Whether no member that a schema requires lists a member that may be missing. -/
def keepsMarks : SchemaNode → Bool
  | .schema s => s.members.all fun (key, node) => !s.requires key || node.requiresAll
  | _ => true

end SchemaNode

namespace Typing

section Members

theorem memberText_inj {nullable required : Bool} {key a b : String} :
    memberText nullable required key a = memberText nullable required key b ↔ a = b := by
  cases required <;> cases nullable <;>
    simp [memberText, String.append_left_inj, String.append_right_inj]

theorem length_memberText_le {a b : String} (h : a.length ≤ b.length) (nullable required : Bool)
    (key : String) : (memberText nullable required key a).length ≤
      (memberText nullable required key b).length := by
  cases required <;> cases nullable <;> simp [memberText, String.length_append, h]

theorem length_memberText_required (nullable required : Bool) (key type : String) :
    (memberText nullable true key type).length ≤
      (memberText nullable required key type).length := by
  cases required with
  | true => exact Nat.le_refl _
  | false => cases nullable <;> simp [memberText, String.length_append] <;> decide

theorem memberText_required_iff {nullable required : Bool} {key type : String} :
    memberText nullable true key type = memberText nullable required key type ↔
      required = true := by
  refine ⟨fun heq => ?_, fun h => by rw [h]⟩
  have hlength := congrArg String.length heq
  cases required with
  | true => rfl
  | false =>
    cases nullable <;> simp [memberText, String.length_append] at hlength <;>
      exact absurd hlength (by decide)

end Members

section Objects

def objectOf (members : List String) : String :=
  if members.isEmpty then anyRecord else "\x7b " ++ String.join members ++ "\x7d"

variable {ι : Type} {f g : ι → String} {l : List ι}

theorem length_objectOf_le (h : ∀ i ∈ l, (f i).length ≤ (g i).length) :
    (objectOf (l.map f)).length ≤ (objectOf (l.map g)).length := by
  have hjoin := length_join_le h
  cases l with
  | nil => exact Nat.le_refl _
  | cons i l => simpa [objectOf, String.length_append] using hjoin

theorem objectOf_eq_iff (h : ∀ i ∈ l, (f i).length ≤ (g i).length) :
    objectOf (l.map f) = objectOf (l.map g) ↔ ∀ i ∈ l, f i = g i := by
  rw [← join_eq_join_iff h]
  cases l with
  | nil => simp [objectOf]
  | cons i l => simp [objectOf, String.append_left_inj, String.append_right_inj]

end Objects

variable [Text.Transliteration] {t : Typing}

def memberOf (t : Typing) (parent : Schema) (member : String × SchemaNode) : String :=
  memberText t.nullable (parent.isPropertyRequired member.1 member.2) member.1
    (t.nodeType member.2)

theorem memberTexts_eq_join (t : Typing) (parent : Schema) (ps : List (String × SchemaNode)) :
    memberTexts t parent ps = String.join (ps.map (t.memberOf parent)) := by
  induction ps with
  | nil => rw [memberTexts]; rfl
  | cons p ps ih =>
    obtain ⟨key, node⟩ := p
    rw [memberTexts, ih, List.map_cons, String.join_cons]
    rfl

theorem nodeType_schema (hplain : t.override = Overrides.none.typeExpression) (s : Schema) :
    t.nodeType (.schema s) = t.schemaType s := by
  rw [nodeType, settle, hplain]
  rfl

theorem schemaType_object {s : Schema} (hform : s.form = .object) :
    t.schemaType s = objectOf (s.members.map (t.memberOf s)) := by
  have hmembers : s.members = s.properties.getD [] := if_pos hform
  rw [schemaType_eq, hform, hmembers]
  dsimp only
  split
  · next p ps hps => rw [hps, memberTexts_eq_join]; rfl
  · next hnone =>
    cases hps : s.properties with
    | none => rfl
    | some ps =>
      cases ps with
      | nil => rfl
      | cons p ps => exact absurd hps (hnone p ps)

theorem schemaType_congr {s s' : Schema} (hform : s.form ≠ .object) (hsame : s'.form = s.form)
    (henum : s'.enum = s.enum) (hitems : s'.items = s.items) (hall : s'.allOf = s.allOf)
    (hone : s'.oneOf = s.oneOf) (hany : s'.anyOf = s.anyOf) : t.schemaType s' = t.schemaType s := by
  rw [schemaType_eq, schemaType_eq, hsame, henum, hitems, hall, hone, hany]
  generalize s.form = form at hform
  cases form with
  | object => exact absurd rfl hform
  | _ => rfl

/-- A schema that is flagged as required, whatever it requires of its own members. -/
def flagged (s : Schema) : Schema :=
  { s with required := some (.flag true) }

theorem length_memberOf_flagged_le (s : Schema) (member : String × SchemaNode) :
    (t.memberOf (flagged s) member).length ≤ (t.memberOf s member).length :=
  length_memberText_required _ _ _ _

theorem length_schemaType_flagged_le (s : Schema) :
    (t.schemaType (flagged s)).length ≤ (t.schemaType s).length := by
  by_cases hform : s.form = .object
  · rw [schemaType_object hform, schemaType_object (s := flagged s) hform]
    exact length_objectOf_le fun member _ => length_memberOf_flagged_le s member
  · exact Nat.le_of_eq (congrArg String.length (schemaType_congr hform rfl rfl rfl rfl rfl rfl))

theorem schemaType_flagged_iff (s : Schema) :
    t.schemaType (flagged s) = t.schemaType s ↔ (SchemaNode.schema s).requiresAll = true := by
  rw [SchemaNode.requiresAll, List.all_eq_true]
  by_cases hform : s.form = .object
  · rw [schemaType_object hform, schemaType_object (s := flagged s) hform]
    rw [show (flagged s).members = s.members from rfl,
      objectOf_eq_iff fun member _ => length_memberOf_flagged_le s member]
    exact forall₂_congr fun member _ => memberText_required_iff
  · have hnone : s.members = [] := if_neg hform
    rw [hnone]
    exact iff_of_true (schemaType_congr hform rfl rfl rfl rfl rfl rfl) (by simp)

end Typing

namespace Endpoint

theorem isPropertyRequired_markProperty (s : Schema) (key : String) (node : SchemaNode) :
    s.isPropertyRequired key (markProperty s key node) = s.isPropertyRequired key node := by
  cases hrequires : s.requires key with
  | true => simp [Schema.isPropertyRequired, hrequires]
  | false => cases node <;> simp [markProperty, hrequires]

theorem form_markRequired (s : Schema) :
    Schema.form { s with
      properties := s.properties.map fun ps => ps.map fun (key, node) =>
        (key, markProperty s key node) } = s.form := by
  simp only [Schema.form, Option.isSome_map]
  rfl

variable [Text.Transliteration] {t : Typing}

theorem length_nodeType_markProperty_le (hplain : t.override = Overrides.none.typeExpression)
    (s : Schema) (key : String) (node : SchemaNode) :
    (t.nodeType (markProperty s key node)).length ≤ (t.nodeType node).length := by
  cases node with
  | schema p =>
    rw [markProperty]
    split
    · rw [Typing.nodeType_schema hplain, Typing.nodeType_schema hplain]
      exact Typing.length_schemaType_flagged_le p
    · exact Nat.le_refl _
  | _ => exact Nat.le_refl _

theorem nodeType_markProperty_iff (hplain : t.override = Overrides.none.typeExpression)
    (s : Schema) (key : String) (node : SchemaNode) :
    t.nodeType (markProperty s key node) = t.nodeType node ↔
      (!s.requires key || node.requiresAll) = true := by
  cases node with
  | schema p =>
    rw [markProperty]
    cases s.requires key with
    | true =>
      rw [if_pos rfl, Typing.nodeType_schema hplain, Typing.nodeType_schema hplain]
      exact Typing.schemaType_flagged_iff p
    | false => simp
  | _ => simp [markProperty, SchemaNode.requiresAll]

def markedMember (t : Typing) (s : Schema) (member : String × SchemaNode) : String :=
  Typing.memberText t.nullable (s.isPropertyRequired member.1 member.2) member.1
    (t.nodeType (markProperty s member.1 member.2))

theorem length_markedMember_le (hplain : t.override = Overrides.none.typeExpression) (s : Schema)
    (member : String × SchemaNode) :
    (markedMember t s member).length ≤ (t.memberOf s member).length :=
  Typing.length_memberText_le (length_nodeType_markProperty_le hplain s member.1 member.2) _ _ _

theorem markedMember_iff (hplain : t.override = Overrides.none.typeExpression) (s : Schema)
    (member : String × SchemaNode) : markedMember t s member = t.memberOf s member ↔
      (!s.requires member.1 || member.2.requiresAll) = true :=
  Typing.memberText_inj.trans (nodeType_markProperty_iff hplain s member.1 member.2)

theorem nodeType_markRequired_object (hplain : t.override = Overrides.none.typeExpression)
    {s : Schema} (hform : s.form = .object) :
    t.nodeType (markRequired (.schema s)) = Typing.objectOf (s.members.map (markedMember t s)) := by
  have hmarked := (form_markRequired s).trans hform
  rw [markRequired, Typing.nodeType_schema hplain, Typing.schemaType_object hmarked]
  simp only [Schema.members, hmarked, hform, if_true]
  cases s.properties with
  | none => simp only [Option.map_none, Option.getD_none, List.map_nil]
  | some ps =>
    simp only [Option.map_some, Option.getD_some, List.map_map]
    congr 1
    refine List.map_congr_left fun member _ => ?_
    rw [markedMember, ← isPropertyRequired_markProperty]
    rfl

/-- Marking shows in a type exactly when a required member lists a member that may be missing. -/
theorem nodeType_markRequired_iff (hplain : t.override = Overrides.none.typeExpression)
    (node : SchemaNode) :
    t.nodeType (markRequired node) = t.nodeType node ↔ node.keepsMarks = true := by
  cases node with
  | schema s =>
    rw [SchemaNode.keepsMarks, List.all_eq_true]
    by_cases hform : s.form = .object
    · rw [nodeType_markRequired_object hplain hform, Typing.nodeType_schema hplain,
        Typing.schemaType_object hform]
      rw [Typing.objectOf_eq_iff fun member _ => length_markedMember_le hplain s member]
      exact forall₂_congr fun member _ => markedMember_iff hplain s member
    · have hnone : s.members = [] := if_neg hform
      rw [hnone, markRequired, Typing.nodeType_schema hplain, Typing.nodeType_schema hplain]
      refine iff_of_true (Typing.schemaType_congr hform ?_ rfl rfl rfl rfl rfl) (by simp)
      exact form_markRequired s
  | _ => simp [markRequired, SchemaNode.keepsMarks]

/-- The schema that a response is typed by, out of its envelope. -/
def responseNode? (d : Document) (dataFields : List String) (e : Endpoint) : Option SchemaNode :=
  (e.responseSchema? d).bind fun node => (unwrapped d dataFields node).toOption

theorem type_of_response {d : Document} {dataFields : List String} {e : Endpoint}
    {answer : ResponseType} (h : e.response d t dataFields = .ok answer) :
    answer.type = ((e.responseNode? d dataFields).map fun node =>
      t.nodeType (markRequired node)).getD Typing.any := by
  rw [responseNode?, responseSchema?]
  cases hdeclared : declaredResponse? e.operation with
  | none =>
    rw [response, hdeclared] at h
    cases h
    rfl
  | some node =>
    rw [response, hdeclared] at h
    obtain ⟨r, hr, h⟩ := bind_eq_ok.1 h
    simp only [Option.bind_some, hr, Except.toOption, Option.join_some]
    cases r with
    | none =>
      cases h
      rfl
    | some r =>
      dsimp only [responseOf] at h
      cases hmedia : r.content.bind chosenMedia? with
      | none =>
        rw [hmedia] at h
        cases h
        simp only [Option.bind_some, hmedia]
        rfl
      | some chosen =>
        rw [hmedia] at h
        obtain ⟨typed, htyped, h⟩ := bind_eq_ok.1 h
        cases h
        simp only [Option.bind_some, hmedia, Option.map_some, htyped]
        rfl

/-- Every member in the type of a response, at any depth, is marked as its own parent in the
document says, exactly when no required member of the response lists a member that may be missing. -/
theorem response_type_iff (d : Document) (t : Typing)
    (hplain : t.override = Overrides.none.typeExpression) (dataFields : List String) (e : Endpoint)
    (answer : ResponseType) (h : e.response d t dataFields = .ok answer) :
    answer.type = t.expression (e.responseNode? d dataFields) ↔
      (e.responseNode? d dataFields).all SchemaNode.keepsMarks = true := by
  rw [type_of_response h]
  cases e.responseNode? d dataFields with
  | none =>
    refine iff_of_true ?_ rfl
    rw [Typing.expression, Typing.settle, hplain]
    rfl
  | some node => exact nodeType_markRequired_iff hplain node

end Endpoint

end ApiClient

namespace ApiClient.Run

def ownerTree (required : List String) : Json :=
  let named (key : String) (required : List String) (type : Json) : Json :=
    .object [("type", .string "object"), ("required", Json.strings required),
      ("properties", .object [(key, type)])]
  let text : Json := .object [("type", .string "string")]
  let data : Json := .object [("type", .string "object"), ("required", Json.strings ["owner"]),
    ("properties", .object [("owner", named "name" required text),
      ("place", named "street" [] text)])]
  documentTree [("/a", .object [("get", .object [("responses", .object [("200", .object
      [("content", .object [("application/json", .object [("schema", .object
        [("$ref", .string "#/components/schemas/Envelope")])])])])])])])]
    [("Envelope", .object [("properties", .object [("data", data)])])]

def ownerRun : Run :=
  .ofTree .default (ownerTree ["name"]) (by decide +kernel)

def responseTypes (r : Run) : List (Option String) :=
  r.document.spec.endpoints.map fun e =>
    (e.response r.document r.typing ["data"]).toOption.map ResponseType.type

theorem exists_endpoint_of_responseTypes {r : Run} {type : String}
    (h : r.responseTypes = [some type]) : ∃ e ∈ r.document.spec.endpoints, ∃ answer,
      e.response r.document r.typing ["data"] = .ok answer ∧ answer.type = type := by
  have hmem : some type ∈ r.responseTypes := by rw [h]; exact List.mem_singleton_self _
  obtain ⟨e, he, htype⟩ := List.mem_map.1 hmem
  cases hanswer : e.response r.document r.typing ["data"] with
  | error failure =>
    rw [hanswer] at htype
    cases htype
  | ok answer =>
    rw [hanswer] at htype
    exact ⟨e, he, answer, hanswer, Option.some.inj htype⟩

theorem ownerRun_type : ∃ e ∈ ownerRun.document.spec.endpoints, ∃ answer,
    e.response ownerRun.document ownerRun.typing ["data"] = .ok answer ∧
    answer.type = "\x7b 'owner': \x7b 'name': string; \x7d; " ++
      "'place'?: \x7b 'street'?: string; \x7d; \x7d" ∧
    answer.type = ownerRun.typing.expression (e.responseNode? ownerRun.document ["data"]) := by
  have htypes : ownerRun.responseTypes = [some ("\x7b 'owner': \x7b 'name': string; \x7d; " ++
      "'place'?: \x7b 'street'?: string; \x7d; \x7d")] := by decide +kernel
  obtain ⟨e, he, answer, hanswer, htype⟩ := exists_endpoint_of_responseTypes htypes
  have hkeeps : ∀ e ∈ ownerRun.document.spec.endpoints,
      (e.responseNode? ownerRun.document ["data"]).all SchemaNode.keepsMarks = true := by
    decide +kernel
  refine ⟨e, he, answer, hanswer, htype, ?_⟩
  exact (Endpoint.response_type_iff _ _ rfl _ e answer hanswer).2 (hkeeps e he)

def namelessRun : Run :=
  .ofTree .default (ownerTree []) (by decide +kernel)

theorem not_response_type : ¬ ∀ (d : Document) (t : Typing),
    t.override = Overrides.none.typeExpression → ∀ (dataFields : List String) (e : Endpoint)
      (answer : ResponseType), e.response d t dataFields = .ok answer →
        answer.type = t.expression (e.responseNode? d dataFields) := by
  intro keeps
  have htypes : namelessRun.responseTypes = [some ("\x7b 'owner': \x7b 'name': string; \x7d; " ++
      "'place'?: \x7b 'street'?: string; \x7d; \x7d")] := by decide +kernel
  obtain ⟨e, he, answer, hanswer, htype⟩ := exists_endpoint_of_responseTypes htypes
  have hplain : ∀ e ∈ namelessRun.document.spec.endpoints,
      namelessRun.typing.expression (e.responseNode? namelessRun.document ["data"]) =
        "\x7b 'owner': \x7b 'name'?: string; \x7d; " ++
          "'place'?: \x7b 'street'?: string; \x7d; \x7d" := by
    decide +kernel
  have hkept := keeps _ _ rfl _ e answer hanswer
  rw [htype, hplain e he] at hkept
  exact absurd hkept (by decide)

end ApiClient.Run
