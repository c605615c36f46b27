import ApiClient.Proofs.Comments
import ApiClient.Proofs.Files
import ApiClient.Proofs.TypeList

namespace ApiClient

open Text (StaysInside)

namespace Text

theorem staysInside_of_isBlankText {text : String} (h : isBlankText text = true) :
    StaysInside text := by
  apply staysInside_of_notMem
  intro hmem
  exact absurd (List.all_eq_true.1 h _ hmem) (by decide)

theorem staysInside_map_trimText {answer : Option String} :
    (∀ text, answer.map trimText = some text → StaysInside text) ↔
      ∀ text, answer = some text → StaysInside text := by
  cases answer <;> simp [staysInside_trimText]

theorem staysInside_nonBlank {answer : Option String} :
    (∀ text, nonBlank answer = some text → StaysInside text) ↔
      ∀ text, answer = some text → StaysInside text := by
  cases answer with
  | none => simp [nonBlank]
  | some text =>
    by_cases hblank : isBlankText text = true
    · simp [nonBlank, Option.filter, hblank, staysInside_of_isBlankText hblank]
    · simp [nonBlank, Option.filter, hblank]

theorem staysInside_intercalate_filter {parts : List String} :
    StaysInside (" ".intercalate (parts.filter fun part => !part.isEmpty)) ↔
      ∀ part ∈ parts, StaysInside part := by
  rw [staysInside_intercalate]
  constructor
  · intro hinside part hpart
    by_cases hempty : part = ""
    · exact hempty ▸ staysInside_empty
    · exact hinside part (List.mem_filter.2 ⟨hpart, by simpa using hempty⟩)
  · exact fun hinside part hpart => hinside part (List.mem_filter.1 hpart).1

theorem staysInside_append_parenthesized {s t : String} :
    StaysInside (s ++ " (" ++ t ++ ")") ↔ StaysInside s ∧ StaysInside t := by
  have hlist : (s ++ " (" ++ t ++ ")").toList = s.toList ++ ' ' :: ([] ++ '(' ::
      (t.toList ++ ')' :: [])) := by
    simp [String.toList_append]
  rw [StaysInside, hlist, pair_infix_append_cons (by decide) (by decide),
    pair_infix_append_cons (by decide) (by decide), pair_infix_append_cons (by decide) (by decide)]
  simp [StaysInside]

end Text

namespace Render

theorem mark_notMem_upperText (method : HttpMethod) : '*' ∉ (upperText method.text).toList := by
  cases method <;> decide +kernel

theorem staysInside_headText {call : Call} {method : HttpMethod} {path : String}
    (hmethod : call.method = method.text) (hpath : call.pathInComment = Run.pathInComment path) :
    StaysInside (headText call) ↔ StaysInside call.description := by
  have hpath : StaysInside call.pathInComment := by
    apply Text.staysInside_of_notMem
    rw [hpath, Run.pathInComment, Text.replaceText, String.toList_ofList]
    exact Text.notMem_replaceMark (by decide) _
  have hmethod : StaysInside (upperText call.method) :=
    Text.staysInside_of_notMem (hmethod ▸ mark_notMem_upperText method)
  rw [headText]
  split
  · next h =>
    rw [String.empty_append, Text.staysInside_append_blank, String.isEmpty_iff.1 h]
    simp [hmethod, hpath, Text.staysInside_empty]
  · rw [Text.staysInside_append_blank, Text.staysInside_append_blank]
    simp [hmethod, hpath]

theorem staysInside_propertyComment {p : Property} :
    StaysInside (propertyComment p) ↔ StaysInside p.description ∧
      ∀ format, p.format = some format → p.description ≠ "" → StaysInside format := by
  rw [propertyComment]
  by_cases hempty : p.description = ""
  · simp [hempty, Text.staysInside_empty]
  · rw [if_neg (by simpa using hempty)]
    cases hformat : p.format with
    | none => simp
    | some format =>
      by_cases hblank : format = ""
      · simp [hblank, Text.staysInside_empty]
      · simp [hblank, hempty, Text.staysInside_append_parenthesized]

end Render

/-- The texts that make up the description of a call: summary, description and the description of
the default response, or the description alone when the summary repeats the function name. -/
inductive Run.Describes (r : Run) (e : Endpoint) (functionName : String) : String → Prop
  | summary {text : String} (h : summary e = some text) (hname : text ≠ functionName) :
      Describes r e functionName text
  | description {text : String} (h : e.operation.description = some text) :
      Describes r e functionName text
  | returns {text : String} {node : RefOr Response} {response : Response}
      (hname : summary e ≠ some functionName)
      (hdefault : e.operation.responses.lookup "default" = some node)
      (hnode : r.document.resolveResponse node = .ok (some response))
      (h : response.description = some text) : Describes r e functionName text

/-- The texts that describe the grouped parameters of an endpoint. -/
def Endpoint.DescribesParameter (d : Document) (e : Endpoint) (text : String) : Prop :=
  ∃ named, e.namedParameters d = .ok named ∧
    ∃ p ∈ named, isGrouped p = true ∧ p.description = some text

/-- The texts that describe the properties of a body that is sent property by property. -/
def Endpoint.DescribesBody (d : Document) (e : Endpoint) (text : String) : Prop :=
  ∃ declared mediaType media rest s, e.declaredBody d = .ok (some declared) ∧
    declared.content = some ((mediaType, media) :: rest) ∧
    d.resolveSchema (media.schema.getD SchemaNode.default) = .ok (.schema s) ∧
    s.isObjectType = true ∧ ∃ entry ∈ s.properties.getD [], isUpload entry.2 = false ∧
      ∃ property, entry.2 = .schema property ∧ property.description = some text

/-- The texts that describe the properties of a component schema and of its inherited schemas. A
format is only written behind a description. -/
def SchemaNode.DescribesProperty (node : SchemaNode) (text : String) : Prop :=
  ∃ whole s, node = .schema whole ∧ whole.enum = none ∧ (s = whole ∨ .schema s ∈ whole.allOf) ∧
    ∃ entry ∈ s.properties.getD [], ∃ property, entry.2 = .schema property ∧
      (property.title = some text ∨ property.description = some text ∨
        NamedType.propertyDescription entry.2 ≠ "" ∧ property.format = some text)

namespace Run

variable {r : Run} {e : Endpoint}

theorem staysInside_returns {returned : Option String} (h : r.returns e = .ok returned) :
    (∀ text, returned = some text → StaysInside text) ↔ ∀ node response text,
      e.operation.responses.lookup "default" = some node →
      r.document.resolveResponse node = .ok (some response) →
      response.description = some text → StaysInside text := by
  rw [returns] at h
  cases hdefault : e.operation.responses.lookup "default" with
  | none =>
    rw [hdefault] at h
    cases h
    simp
  | some node =>
    rw [hdefault] at h
    obtain ⟨resolved, hresolved, h⟩ := bind_eq_ok.1 h
    cases h
    rw [Text.staysInside_map_trimText, Text.staysInside_nonBlank]
    constructor
    · intro hinside node' response text hsame hnode htext
      cases hsame
      cases hresolved.symm.trans hnode
      exact hinside text htext
    · intro hinside text htext
      obtain ⟨response, rfl, htext⟩ := Option.bind_eq_some_iff.1 htext
      exact hinside node response text rfl hresolved htext

theorem staysInside_describe {functionName description : String}
    (h : r.describe e functionName = .ok description) :
    StaysInside description ↔ ∀ text, r.Describes e functionName text → StaysInside text := by
  have hown : StaysInside (Text.trimText (e.operation.description.getD "")) ↔
      ∀ text, e.operation.description = some text → StaysInside text := by
    rw [Text.staysInside_trimText]
    cases e.operation.description <;> simp [Text.staysInside_empty]
  rw [describe] at h
  split at h
  · next hname =>
    cases h
    rw [hown]
    constructor
    · rintro hinside text (⟨h, hne⟩ | h | ⟨hne, -, -, -⟩)
      · rw [hname] at h
        cases h
        exact absurd rfl hne
      · exact hinside text h
      · exact absurd hname hne
    · exact fun hinside text h => hinside text (.description h)
  · next hname =>
    obtain ⟨returned, hreturned, h⟩ := bind_eq_ok.1 h
    cases h
    rw [Text.staysInside_intercalate_filter, List.forall_mem_append, List.forall_mem_cons, hown]
    simp only [Option.mem_toList]
    rw [Text.staysInside_map_trimText, staysInside_returns hreturned]
    constructor
    · rintro ⟨hsummary, hdescription, hreturned⟩ text (⟨h, -⟩ | h | ⟨-, hdefault, hnode, h⟩)
      · exact hsummary text h
      · exact hdescription text h
      · exact hreturned _ _ text hdefault hnode h
    · intro hinside
      refine ⟨fun text h => hinside text (.summary h fun heq => hname (heq ▸ h)),
        fun text h => hinside text (.description h), ?_⟩
      intro node response text hdefault hnode h
      exact hinside text (.returns hname hdefault hnode h)

end Run

variable [Text.Transliteration]

omit [Text.Transliteration] in
theorem SchemaNode.bind_schema?_eq_some {α : Type} {f : Schema → Option α} {node : SchemaNode}
    {a : α} : node.schema?.bind f = some a ↔ ∃ s, node = .schema s ∧ f s = some a := by
  cases node <;> simp [schema?]

namespace Endpoint

variable {d : Document} {t : Typing} {e : Endpoint} {text : String}

theorem bodyDescribes_bodyShape {mediaType : String} {required : Bool}
    {node resolved : SchemaNode} :
    Render.BodyDescribes ⟨mediaType, required, bodyShape t node resolved⟩ text ↔
      ∃ s, resolved = .schema s ∧ s.isObjectType = true ∧
        ∃ entry ∈ s.properties.getD [], isUpload entry.2 = false ∧
          ∃ property, entry.2 = .schema property ∧ property.description = some text := by
  cases resolved with
  | schema s =>
    rw [bodyShape]
    split
    · next h =>
      obtain ⟨hobject, -⟩ := Bool.and_eq_true_iff.1 h
      simp [Render.BodyDescribes, bodyProperties, hobject, SchemaNode.bind_schema?_eq_some,
        and_assoc]
    · next h =>
      have hnone : s.isObjectType = true → s.properties = none := by simpa using h
      refine iff_of_false (by simp [Render.BodyDescribes]) ?_
      rintro ⟨_, hs, hobject, entry, hentry, -⟩
      cases hs
      simp [hnone hobject] at hentry
  | _ => simp [bodyShape, Render.BodyDescribes]

theorem bodyDescribes_iff {body : Option Body} (h : e.body d t = .ok body) :
    (∃ b, body = some b ∧ Render.BodyDescribes b text) ↔ e.DescribesBody d text := by
  obtain ⟨declared, hdeclared, h⟩ := bind_eq_ok.1 h
  rw [DescribesBody, hdeclared]
  rcases declared with _ | ⟨description, _ | _ | ⟨⟨mediaType, media⟩, rest⟩, required⟩
  · cases h
    simp
  · cases h
    simp
  · cases h
    simp
  · obtain ⟨resolved, hresolved, h⟩ := bind_eq_ok.1 h
    cases h
    constructor
    · rintro ⟨_, hb, hdescribes⟩
      cases hb
      obtain ⟨s, rfl, hs⟩ := bodyDescribes_bodyShape.1 hdescribes
      exact ⟨_, mediaType, media, rest, s, rfl, rfl, hresolved, hs⟩
    · rintro ⟨_, _, _, _, s, hd, hcontent, hschema, hs⟩
      cases hd
      cases hcontent
      cases hresolved.symm.trans hschema
      exact ⟨_, rfl, bodyDescribes_bodyShape.2 ⟨s, rfl, hs⟩⟩

omit [Text.Transliteration] in
theorem map_callParams {α : Type} {f : Param → α} (hf : ∀ p isComplexType aliasName,
    f { p with isComplexType, aliasName } = f p) (g : ParamGroups) :
    (Run.callParams g).toList.map f = g.toList.map f := by
  have hpath : ∀ (i : Nat) (params : List Param),
      (Path.withAliases i params).map f = params.map f := by
    intro i params
    induction params generalizing i with
    | nil => rfl
    | cons p rest ih =>
      rw [Path.withAliases, List.map_cons, List.map_cons, ih]
      exact congrArg (· :: _) (hf p _ _)
  have hquery : (Run.callParams g).query.map f = g.query.map f := by
    rw [Run.callParams, List.map_map]
    exact List.map_congr_left fun p _ => hf p _ _
  rw [ParamGroups.toList, ParamGroups.toList, List.map_append, List.map_append, hquery,
    List.map_append, List.map_append]
  exact congrArg (· ++ _ ++ _) (hpath 0 g.path)

omit [Text.Transliteration] in
theorem mem_description_addImplied (params : List Param) (names : List String) :
    some text ∈ (addImplied params names).map Param.description ↔
      some text ∈ params.map Param.description := by
  induction names generalizing params with
  | nil => rfl
  | cons name rest ih =>
    rw [addImplied]
    split
    · exact ih params
    · rw [ih]
      simp [impliedParam]

theorem toParam_eq_ok {p : Parameter} {param : Param} (h : toParam d t p = .ok param) :
    param.location = p.location ∧ param.description = p.description := by
  obtain ⟨isObject, -, h⟩ := bind_eq_ok.1 h
  cases h
  exact ⟨rfl, rfl⟩

theorem describesParameter_iff {params : ClassifiedParams} (h : e.params d t = .ok params) :
    some text ∈ (Run.callParams params.groups).toList.map Param.description ↔
      e.DescribesParameter d text := by
  obtain ⟨named, hnamed, h⟩ := bind_eq_ok.1 h
  obtain ⟨grouped, hgrouped, h⟩ := bind_eq_ok.1 h
  cases h
  have hparams := forall₂_of_mapM hgrouped
  rw [DescribesParameter, hnamed, map_callParams fun _ _ _ => rfl]
  simp only [ParamGroups.toList, List.map_append, List.mem_append, mem_description_addImplied]
  simp only [List.mem_map, List.mem_filter, beq_iff_eq]
  constructor
  · intro hdescribed
    obtain ⟨param, hmem, htext⟩ : ∃ param ∈ grouped, param.description = some text := by
      rcases hdescribed with (⟨p, ⟨hp, -⟩, htext⟩ | ⟨p, ⟨hp, -⟩, htext⟩) | ⟨p, ⟨hp, -⟩, htext⟩ <;>
        exact ⟨p, hp, htext⟩
    obtain ⟨p, hp, hparam⟩ := exists_of_forall₂ hparams hmem
    obtain ⟨hp, hisGrouped⟩ := List.mem_filter.1 hp
    exact ⟨named, rfl, p, hp, hisGrouped, (toParam_eq_ok hparam).2 ▸ htext⟩
  · rintro ⟨_, hsame, p, hp, hisGrouped, htext⟩
    cases hsame
    obtain ⟨param, hmem, hparam⟩ :=
      exists_of_forall₂_left hparams (List.mem_filter.2 ⟨hp, hisGrouped⟩)
    obtain ⟨hlocation, hdescription⟩ := toParam_eq_ok hparam
    rw [← hdescription] at htext
    simp only [isGrouped, ← hlocation, Bool.or_eq_true, beq_iff_eq] at hisGrouped
    obtain (hlocated | hlocated) | hlocated := hisGrouped
    · exact .inl (.inr ⟨param, ⟨hmem, hlocated⟩, htext⟩)
    · exact .inl (.inl ⟨param, ⟨hmem, hlocated⟩, htext⟩)
    · exact .inr ⟨param, ⟨hmem, hlocated⟩, htext⟩

end Endpoint

namespace SchemaNode

variable {d : Document} {t : Typing} {style : EnumStyle} {node : SchemaNode} {named : NamedType}

theorem staysInside_propertiesOf {s : Schema} :
    (∀ p ∈ NamedType.propertiesOf t s, StaysInside (Render.propertyComment p)) ↔
      ∀ entry ∈ s.properties.getD [], ∀ property, entry.2 = .schema property → ∀ text,
        (property.title = some text ∨ property.description = some text ∨
          NamedType.propertyDescription entry.2 ≠ "" ∧ property.format = some text) →
        StaysInside text := by
  rw [NamedType.propertiesOf, List.forall_mem_map]
  refine forall₂_congr fun (key, node) _ => ?_
  rw [Render.staysInside_propertyComment]
  cases node with
  | schema property =>
    simp only [NamedType.propertyDescription, schema?, Text.staysInside_intercalate,
      List.forall_mem_append, Option.mem_toList, Option.bind_some]
    constructor
    · rintro ⟨⟨htitle, hdescription⟩, hformat⟩ _ hsame text (h | h | ⟨hne, h⟩)
      · cases hsame
        exact htitle text h
      · cases hsame
        exact hdescription text h
      · cases hsame
        exact hformat text h hne
    · intro hinside
      exact ⟨⟨fun text h => hinside property rfl text (.inl h),
        fun text h => hinside property rfl text (.inr (.inl h))⟩,
        fun text h hne => hinside property rfl text (.inr (.inr ⟨hne, h⟩))⟩
  | _ => simp [NamedType.propertyDescription, schema?, Text.staysInside_empty]

omit [Text.Transliteration] in
theorem properties_of_not_hasProperties {s : Schema} (h : s.hasProperties = false) :
    s.properties.getD [] = [] := by
  cases hs : s.properties with
  | none => rfl
  | some properties =>
    rw [Schema.hasProperties, hs] at h
    simpa using h

theorem fields_mem_inheritedGroup {properties : List Property} {groups : List PropertyGroup}
    (h : NamedType.inheritedGroup d t node = .ok groups) (hmem : .fields properties ∈ groups) :
    ∃ s, node = .schema s ∧ properties = NamedType.propertiesOf t s := by
  cases node with
  | schema s =>
    cases h
    exact ⟨s, rfl, by simpa using hmem⟩
  | reference path =>
    obtain ⟨_, -, h⟩ := bind_eq_ok.1 h
    cases h
    simp at hmem
  | _ =>
    cases h
    simp at hmem

/-- The members of a named type are those of the schema and of the schemas that it inherits in
place. -/
theorem fields_mem_groups {whole : Schema} (henum : whole.enum = none)
    (h : NamedType.ofNode d t style (.schema whole) = .ok named) :
    named.isEnum = false ∧ ∀ properties, .fields properties ∈ named.groups ↔
      ∃ s, (s = whole ∧ whole.hasProperties = true ∨ .schema s ∈ whole.allOf) ∧
        properties = NamedType.propertiesOf t s := by
  have hown : ∀ properties, .fields properties ∈ NamedType.ownGroup t whole ↔
      whole.hasProperties = true ∧ properties = NamedType.propertiesOf t whole := by
    intro properties
    rw [NamedType.ownGroup]
    split <;> simp [*]
  simp only [NamedType.ofNode, henum] at h
  split at h
  · obtain ⟨groups, hgroups, h⟩ := bind_eq_ok.1 h
    cases h
    have hparts := forall₂_of_mapM hgroups
    have hinherited : ∀ properties, .fields properties ∈ groups.flatten ↔
        ∃ s, .schema s ∈ whole.allOf ∧ properties = NamedType.propertiesOf t s := by
      intro properties
      rw [List.mem_flatten]
      constructor
      · rintro ⟨part, hpart, hmem⟩
        obtain ⟨node, hnode, heq⟩ := exists_of_forall₂ hparts hpart
        obtain ⟨s, rfl, hs⟩ := fields_mem_inheritedGroup heq hmem
        exact ⟨s, hnode, hs⟩
      · rintro ⟨s, hs, rfl⟩
        obtain ⟨part, hpart, heq⟩ := exists_of_forall₂_left hparts hs
        cases heq
        exact ⟨_, hpart, List.mem_singleton_self _⟩
    refine ⟨rfl, fun properties => ?_⟩
    rw [NamedType.ofGroups, List.mem_append, hinherited, hown]
    constructor
    · rintro (⟨s, hs, heq⟩ | ⟨hproperties, heq⟩)
      · exact ⟨s, .inr hs, heq⟩
      · exact ⟨whole, .inl ⟨rfl, hproperties⟩, heq⟩
    · rintro ⟨s, ⟨rfl, hproperties⟩ | hs, heq⟩
      · exact .inr ⟨hproperties, heq⟩
      · exact .inl ⟨s, hs, heq⟩
  · next hall =>
    have hall : whole.allOf = [] := by simpa using hall
    split at h
    · cases h
      exact ⟨rfl, by simp [NamedType.ofGroups, hown, hall]⟩
    · next hproperties =>
      have halias : named.isEnum = false ∧ named.groups = [] := by
        split at h <;> cases h <;> exact ⟨rfl, rfl⟩
      exact ⟨halias.1, by simp [halias.2, hall, hproperties]⟩

theorem staysInside_groups {whole : Schema} (henum : whole.enum = none)
    (h : NamedType.ofNode d t style (.schema whole) = .ok named) :
    (∀ properties, .fields properties ∈ named.groups → ∀ p ∈ properties,
      StaysInside (Render.propertyComment p)) ↔
      ∀ text, (SchemaNode.schema whole).DescribesProperty text → StaysInside text := by
  obtain ⟨-, hmem⟩ := fields_mem_groups henum h
  constructor
  · rintro hinside text ⟨_, s, heq, -, hs, entry, hentry, property, hproperty, htext⟩
    cases heq
    have hfields : .fields (NamedType.propertiesOf t s) ∈ named.groups := by
      refine (hmem _).2 ⟨s, hs.imp_left fun heq => ⟨heq, ?_⟩, rfl⟩
      cases hproperties : whole.hasProperties with
      | true => rfl
      | false =>
        rw [heq, properties_of_not_hasProperties hproperties] at hentry
        cases hentry
    exact staysInside_propertiesOf.1 (hinside _ hfields) entry hentry property hproperty text htext
  · intro hinside properties hfields
    obtain ⟨s, hs, rfl⟩ := (hmem _).1 hfields
    refine staysInside_propertiesOf.2 fun entry hentry property hproperty text htext => ?_
    exact hinside text ⟨whole, s, rfl, henum, hs.imp_left And.left, entry, hentry, property,
      hproperty, htext⟩

theorem staysInside_ofNode (h : NamedType.ofNode d t style node = .ok named) (name : String) :
    ((named.toInterface name).isEnum = false → ∀ properties,
      .fields properties ∈ (named.toInterface name).props → ∀ p ∈ properties,
        StaysInside (Render.propertyComment p)) ↔
      ∀ text, node.DescribesProperty text → StaysInside text := by
  cases node with
  | schema whole =>
    cases henum : whole.enum with
    | some entries =>
      simp only [NamedType.ofNode, henum, NamedType.ofEnum] at h
      have hnone : named.groups = [] := by
        split at h <;> cases h <;> rfl
      simp [NamedType.toInterface, hnone, DescribesProperty, henum]
    | none =>
      rw [NamedType.toInterface, (fields_mem_groups henum h).1]
      simpa using staysInside_groups henum h
  | reference path =>
    obtain ⟨_, -, h⟩ := bind_eq_ok.1 h
    cases h
    simp [NamedType.toInterface, NamedType.synonym, DescribesProperty]
  | _ =>
    cases h
    simp [NamedType.toInterface, NamedType.synonym, DescribesProperty]

end SchemaNode

namespace Run

variable {r : Run} {c : Client}

omit [Text.Transliteration] in
/-- A type of parameters is described by what describes the parameters. -/
theorem staysInside_paramsInterface {name : String} {params : ParamGroups} :
    ((paramsInterface name params).isEnum = false → ∀ properties,
      .fields properties ∈ (paramsInterface name params).props → ∀ p ∈ properties,
        StaysInside (Render.propertyComment p)) ↔
      ∀ text, some text ∈ params.toList.map Param.description → StaysInside text := by
  have hparam : ∀ description : Option String, StaysInside (description.getD "") ↔
      ∀ text, description = some text → StaysInside text := by
    intro description
    cases description <;> simp [Text.staysInside_empty]
  constructor
  · intro hinside text htext
    obtain ⟨p, hp, hdescription⟩ := List.mem_map.1 htext
    have hcomment := hinside rfl _ (List.mem_singleton_self _) _ (List.mem_map_of_mem hp)
    exact (hparam _).1 (Render.staysInside_propertyComment.1 hcomment).1 text hdescription
  · intro hinside _ properties hfields property hproperty
    obtain rfl := PropertyGroup.fields.inj (List.mem_singleton.1 hfields)
    obtain ⟨p, hp, rfl⟩ := List.mem_map.1 hproperty
    have hdescription : StaysInside (p.description.getD "") :=
      (hparam _).2 fun text htext => hinside text (List.mem_map.2 ⟨p, hp, htext⟩)
    exact Render.staysInside_propertyComment.2 ⟨hdescription, nofun⟩

theorem exists_endpoint_of_mem_taggedCalls (h : r.client = .ok c) {tag : String} {call : Call}
    (hcall : (tag, call) ∈ c.taggedCalls) : ∃ e ∈ r.document.spec.endpoints, ∃ shape,
      call.key = e.key ∧ call.pathInComment = pathInComment call.path ∧ r.shape e = .ok shape ∧
      r.describe e call.functionName = .ok call.description ∧ call.body = shape.body ∧
      call.params = callParams shape.params.groups := by
  obtain ⟨u, hu, hmem⟩ := List.mem_flatMap.1 hcall
  obtain ⟨_, hmem, heq⟩ := List.mem_map.1 hmem
  cases heq
  obtain ⟨e, he, -, part, ⟨used, names, shape, description, hshape, hdescribe, rfl⟩, rfl⟩ :=
    exists_isPartOf h hu hmem
  exact ⟨e, (ApiSpec.mem_members.1 he).1, shape, rfl, rfl, hshape, hdescribe, rfl, rfl⟩

/-- A text of the document that ends up in a comment of a client. -/
inductive ReachesComment (r : Run) (c : Client) : String → Prop
  | call {tag : String} {call : Call} {e : Endpoint} {text : String}
      (hcall : (tag, call) ∈ c.taggedCalls) (he : e ∈ r.document.spec.endpoints)
      (hkey : call.key = e.key)
      (h : r.Describes e call.functionName text ∨ e.DescribesParameter r.document text ∨
        e.DescribesBody r.document text) : ReachesComment r c text
  | property {entry : String × SchemaNode} {text : String}
      (hentry : entry ∈ r.document.componentSchemas) (h : entry.2.DescribesProperty text) :
      ReachesComment r c text

theorem staysInside_call (h : r.client = .ok c) {tag : String} {call : Call}
    (hcall : (tag, call) ∈ c.taggedCalls) {e : Endpoint} (he : e ∈ r.document.spec.endpoints)
    (hkey : call.key = e.key) :
    (StaysInside (Render.headText call) ∧ ∀ b, call.body = some b →
      ∀ text, Render.BodyDescribes b text → StaysInside text) ↔
      ∀ text, r.Describes e call.functionName text ∨ e.DescribesBody r.document text →
        StaysInside text := by
  obtain ⟨e', he', shape, hkey', hpath, hshape, hdescribe, hbody, -⟩ :=
    exists_endpoint_of_mem_taggedCalls h hcall
  obtain rfl := Document.endpoint_eq_of_key he he' (hkey.symm.trans hkey')
  have hmethod : call.method = e.method.text := congrArg Prod.snd hkey
  have hbody' : (∀ b, call.body = some b → ∀ text, Render.BodyDescribes b text →
      StaysInside text) ↔ ∀ text, e.DescribesBody r.document text → StaysInside text := by
    rw [hbody]
    simp only [← Endpoint.bodyDescribes_iff (shape_eq_ok hshape).2.1]
    constructor
    · rintro hinside text ⟨b, hb, htext⟩
      exact hinside b hb text htext
    · exact fun hinside b hb text htext => hinside text ⟨b, hb, htext⟩
  rw [Render.staysInside_headText hmethod hpath, staysInside_describe hdescribe, hbody']
  simp only [or_imp, forall_and]

omit [Text.Transliteration] in
theorem isEmpty_eq_false_of_mem {params : ParamGroups} {p : Param} (h : p ∈ params.toList) :
    params.isEmpty = false := by
  refine Bool.eq_false_iff.2 fun hempty => ?_
  obtain ⟨⟨hquery, hpath⟩, hcookie⟩ :
      (params.query = [] ∧ params.path = []) ∧ params.cookie = [] := by
    simpa [ParamGroups.isEmpty] using hempty
  simp [ParamGroups.toList, hquery, hpath, hcookie] at h

theorem staysInside_interfaces (h : r.client = .ok c) :
    (∀ i ∈ c.interfaces, i.isEnum = false → ∀ properties, .fields properties ∈ i.props →
      ∀ p ∈ properties, StaysInside (Render.propertyComment p)) ↔
      (∀ entry ∈ r.document.componentSchemas, ∀ text, entry.2.DescribesProperty text →
        StaysInside text) ∧
      ∀ tag call, (tag, call) ∈ c.taggedCalls → ∀ e ∈ r.document.spec.endpoints,
        call.key = e.key → ∀ text, e.DescribesParameter r.document text → StaysInside text := by
  obtain ⟨components, params, hlist⟩ := exists_listsTypes r c h
  have hcall : ∀ {tag call}, (tag, call) ∈ c.taggedCalls → ∀ {e}, e ∈ r.document.spec.endpoints →
      call.key = e.key → ∀ text, some text ∈ call.params.toList.map Param.description ↔
        e.DescribesParameter r.document text := by
    intro tag call hcall e he hkey text
    obtain ⟨e', he', shape, hkey', -, hshape, -, -, hparams⟩ :=
      exists_endpoint_of_mem_taggedCalls h hcall
    obtain rfl := Document.endpoint_eq_of_key he he' (hkey.symm.trans hkey')
    rw [hparams]
    exact Endpoint.describesParameter_iff (shape_eq_ok hshape).1
  constructor
  · intro hinside
    refine ⟨fun entry hentry => ?_, fun tag call htagged e he hkey text htext => ?_⟩
    · obtain ⟨_, hi, named, hnamed, rfl⟩ := exists_of_forall₂_left hlist.ofSchemas hentry
      have hmem := hlist.perm.mem_iff.2 (List.mem_append_left params hi)
      exact (SchemaNode.staysInside_ofNode hnamed entry.1).1 (hinside _ hmem)
    · rw [← hcall htagged he hkey] at htext
      have hsome : call.params.isEmpty = false := by
        obtain ⟨p, hp, -⟩ := List.mem_map.1 htext
        exact isEmpty_eq_false_of_mem hp
      obtain ⟨i, hi, htype⟩ := exists_of_forall₂_left hlist.ofOperations
        ((hlist.mem_iff call.key).2 ⟨_, htagged, rfl, hsome⟩)
      have hmem := hlist.perm.mem_iff.2 (List.mem_append_right components hi)
      have hi := (htype _ htagged rfl).2
      exact staysInside_paramsInterface.1 (hi ▸ hinside i hmem) text htext
  · rintro ⟨hschemas, hparams⟩ i hi
    obtain hi | hi := List.mem_append.1 (hlist.perm.mem_iff.1 hi)
    · obtain ⟨entry, hentry, named, hnamed, rfl⟩ := exists_of_forall₂ hlist.ofSchemas hi
      exact (SchemaNode.staysInside_ofNode hnamed entry.1).2 (hschemas entry hentry)
    · obtain ⟨key, hkey, htype⟩ := exists_of_forall₂ hlist.ofOperations hi
      obtain ⟨⟨tag, call⟩, htagged, hcallKey, -⟩ := (hlist.mem_iff key).1 hkey
      obtain ⟨e, he, -, hkey', -⟩ := exists_endpoint_of_mem_taggedCalls h htagged
      rw [(htype _ htagged hcallKey).2]
      refine staysInside_paramsInterface.2 fun text htext => ?_
      exact hparams tag call htagged e he hkey' text ((hcall htagged he hkey' text).1 htext)

theorem exists_segments (h : r.client = .ok c) {u : ServiceUnit} (hu : u ∈ c.services)
    (nullable : Bool) (requestLibPath : String) : ∃ segments,
      Render.serviceSegments nullable requestLibPath u = .ok segments ∧
      Render.service nullable requestLibPath u = .ok (Render.written segments) := by
  obtain ⟨text, htext⟩ := exists_service h hu nullable requestLibPath
  rw [Render.service_eq] at htext ⊢
  cases hsegments : Render.serviceSegments nullable requestLibPath u with
  | error cause =>
    rw [hsegments] at htext
    cases htext
  | ok segments => exact ⟨segments, rfl, rfl⟩

/-- The comments of the files of all units. -/
theorem commentsClose_services (h : r.client = .ok c) (nullable : Bool) (requestLibPath : String) :
    (∀ u ∈ c.services, ∀ segments,
      Render.serviceSegments nullable requestLibPath u = .ok segments →
        Render.CommentsClose segments) ↔
      ∀ tag call, (tag, call) ∈ c.taggedCalls → ∀ e ∈ r.document.spec.endpoints,
        call.key = e.key → ∀ text,
          r.Describes e call.functionName text ∨ e.DescribesBody r.document text →
            StaysInside text := by
  constructor
  · intro hclose tag call htagged e he hkey
    obtain ⟨u, hu, hmem⟩ := List.mem_flatMap.1 htagged
    obtain ⟨_, hmem, heq⟩ := List.mem_map.1 hmem
    cases heq
    obtain ⟨segments, hsegments, -⟩ := exists_segments h hu nullable requestLibPath
    rw [← staysInside_call h htagged he hkey]
    exact (Render.commentsClose_service hsegments).1 (hclose u hu segments hsegments) call hmem
  · intro hinside u hu segments hsegments
    refine (Render.commentsClose_service hsegments).2 fun call hmem => ?_
    have htagged : (u.tag, call) ∈ c.taggedCalls :=
      List.mem_flatMap.2 ⟨u, hu, List.mem_map_of_mem hmem⟩
    obtain ⟨e, he, -, hkey, -⟩ := exists_endpoint_of_mem_taggedCalls h htagged
    exact (staysInside_call h htagged he hkey).2 (hinside u.tag call htagged e he hkey)

/-- All files can be written, and their comments end where they are meant to end exactly when no
text that reaches a comment has the end of a comment in it. -/
theorem comments_close_iff (r : Run) (c : Client) (h : r.client = .ok c) (nullable : Bool)
    (requestLibPath : String) :
    Render.typings nullable c = Render.written (Render.typingsSegments nullable c) ∧
    (∀ u ∈ c.services, ∃ segments,
      Render.serviceSegments nullable requestLibPath u = .ok segments ∧
      Render.service nullable requestLibPath u = .ok (Render.written segments)) ∧
    ((Render.CommentsClose (Render.typingsSegments nullable c) ∧
      ∀ u ∈ c.services, ∀ segments,
        Render.serviceSegments nullable requestLibPath u = .ok segments →
          Render.CommentsClose segments) ↔
      ∀ text, r.ReachesComment c text → StaysInside text) := by
  refine ⟨(Render.written_typingsSegments nullable c).symm,
    fun u hu => exists_segments h hu nullable requestLibPath, ?_⟩
  rw [Render.commentsClose_typings, staysInside_interfaces h, commentsClose_services h]
  constructor
  · rintro ⟨⟨hschemas, hparams⟩, hcalls⟩ text
      (⟨htagged, he, hkey, hdescribes | hparameter | hbody⟩ | ⟨hentry, hproperty⟩)
    · exact hcalls _ _ htagged _ he hkey text (.inl hdescribes)
    · exact hparams _ _ htagged _ he hkey text hparameter
    · exact hcalls _ _ htagged _ he hkey text (.inr hbody)
    · exact hschemas _ hentry text hproperty
  · intro hinside
    refine ⟨⟨fun entry hentry text htext => hinside text (.property hentry htext),
      fun tag call htagged e he hkey text htext =>
        hinside text (.call htagged he hkey (.inr (.inl htext)))⟩, ?_⟩
    intro tag call htagged e he hkey text htext
    exact hinside text (.call htagged he hkey (htext.imp_right .inr))

end Run

end ApiClient

namespace ApiClient

namespace Render

def commentTexts (segments : List Segment) : List String :=
  segments.filterMap fun
    | .code _ => none
    | .comment text => some text

theorem mem_commentTexts {segments : List Segment} {text : String} :
    text ∈ commentTexts segments ↔ .comment text ∈ segments := by
  simp only [commentTexts, List.mem_filterMap]
  constructor
  · rintro ⟨segment, hmem, heq⟩
    cases segment with
    | code _ => cases heq
    | comment _ =>
      cases heq
      exact hmem
  · exact fun hmem => ⟨_, hmem, rfl⟩

theorem commentsClose_of_texts {segments : List Segment} {texts : List String}
    (h : commentTexts segments = texts) (hplain : ∀ text ∈ texts, '*' ∉ text.toList) :
    CommentsClose segments := by
  subst h
  intro text hmem
  exact Text.closes_iff.2 (Text.staysInside_of_notMem (hplain text (mem_commentTexts.2 hmem)))

end Render

namespace Run

def spokenTree (summary : String) : Json :=
  documentTree
    [("/files/*", .object [("get", .object [
      ("summary", .string summary), ("description", .string "All of them."),
      ("tags", Json.strings ["file"]),
      ("parameters", .array [.object [("name", .string "page"), ("in", .string "query"),
        ("description", .string "From one.")]]),
      ("responses", .object [("default", .object [("description", .string "Names")])])])])]
    [("Pet", .object [("type", .string "object"), ("properties", .object [
      ("id", .object [("type", .string "integer"), ("format", .string "int64"),
        ("title", .string "Key"), ("description", .string "of a pet")])])])]

def spokenRun : Run :=
  .ofTree .default (spokenTree "List files") (by decide +kernel)

def unitComments (u : ServiceUnit) : List String :=
  ((Render.serviceSegments false "@umijs/max" u).toOption.map Render.commentTexts).getD []

def fileComments (c : Client) : List (List String) :=
  Render.commentTexts (Render.typingsSegments false c) :: c.services.map unitComments

theorem unitComments_eq {u : ServiceUnit} {segments : List Render.Segment}
    (h : Render.serviceSegments false "@umijs/max" u = .ok segments) :
    unitComments u = Render.commentTexts segments := by
  rw [unitComments, h]
  rfl

theorem spokenRun_comments : ∃ c, spokenRun.client = .ok c ∧
    fileComments c = [["From one.", "Key of a pet (int64)"],
      ["List files All of them. Names GET /files/&#42;"]] ∧
    ∀ text, spokenRun.ReachesComment c text → Text.StaysInside text := by
  obtain ⟨c, hc, hcomments⟩ : ∃ c, spokenRun.client = .ok c ∧
      fileComments c = [["From one.", "Key of a pet (int64)"],
        ["List files All of them. Names GET /files/&#42;"]] :=
    exists_ok_of_map (by decide +kernel)
  refine ⟨c, hc, hcomments, ?_⟩
  obtain ⟨-, -, hreach⟩ := comments_close_iff spokenRun c hc false "@umijs/max"
  obtain ⟨htypings, hservices⟩ := List.cons.inj hcomments
  refine hreach.1 ⟨Render.commentsClose_of_texts htypings (by decide), ?_⟩
  intro u hu segments hsegments
  have hmem := List.mem_map_of_mem (f := unitComments) hu
  rw [hservices, List.mem_singleton, unitComments_eq hsegments] at hmem
  exact Render.commentsClose_of_texts hmem (by decide)

def brokenRun : Run :=
  .ofTree .default (spokenTree "a */ b") (by decide +kernel)

theorem not_commentsClose : ¬ ∀ (r : Run) (c : Client), r.overrides = .none → r.client = .ok c →
    Render.CommentsClose (Render.typingsSegments r.config.nullable c) ∧
      ∀ u ∈ c.services, ∀ segments,
        Render.serviceSegments r.config.nullable r.config.requestLibPath u = .ok segments →
          Render.CommentsClose segments := by
  intro close
  obtain ⟨c, hc, hcomments⟩ : ∃ c, brokenRun.client = .ok c ∧
      c.services.map unitComments = [["a */ b All of them. Names GET /files/&#42;"]] :=
    exists_ok_of_map (by decide +kernel)
  obtain ⟨u, hu, htexts⟩ := exists_unit_of_map hcomments
  obtain ⟨segments, hsegments, -⟩ := exists_segments hc hu false "@umijs/max"
  rw [unitComments_eq hsegments] at htexts
  have hmem := Render.mem_commentTexts.1 (htexts ▸ List.mem_singleton_self _)
  have hcloses := (close brokenRun c rfl hc).2 u hu segments hsegments _ hmem
  exact Text.closes_iff.1 hcloses (by decide)

end Run

end ApiClient
