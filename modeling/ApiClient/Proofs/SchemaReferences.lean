import ApiClient.Proofs.Runs

namespace ApiClient

mutual

def SchemaNode.references : SchemaNode → List String
  | .reference path => [path]
  | .schema s => Schema.references s
  | _ => []

def Schema.references : Schema → List String
  | ⟨_, _, _, _, properties, _, items, _, allOf, oneOf, anyOf, _⟩ =>
    (match properties with
      | some ps => SchemaNode.propertyReferences ps
      | none => []) ++
    (match items with
      | some i => Items.references i
      | none => []) ++
    SchemaNode.memberReferences allOf ++ SchemaNode.memberReferences oneOf ++
    SchemaNode.memberReferences anyOf

def Items.references : Items → List String
  | .tuple members => SchemaNode.memberReferences members
  | .single item => SchemaNode.references item

def SchemaNode.propertyReferences : List (String × SchemaNode) → List String
  | [] => []
  | (_, node) :: rest => SchemaNode.references node ++ SchemaNode.propertyReferences rest

def SchemaNode.memberReferences : List SchemaNode → List String
  | [] => []
  | node :: rest => SchemaNode.references node ++ SchemaNode.memberReferences rest

end

section Documents

variable {d : Document}

def Document.Resolves (d : Document) (reference : String) : Prop :=
  ∃ target, d.resolve reference = .ok target

instance (d : Document) (reference : String) : Decidable (d.Resolves reference) :=
  match h : d.resolve reference with
  | .ok target => isTrue ⟨target, h⟩
  | .error _ => isFalse fun ⟨target, ht⟩ => by rw [h] at ht; cases ht

theorem Document.resolves_of_resolveSchema {node resolved : SchemaNode} {reference : String}
    (h : d.resolveSchema node = .ok resolved) (hnode : node.reference? = some reference) :
    d.Resolves reference := by
  cases node with
  | reference path =>
    cases hnode
    obtain ⟨target, htarget, -⟩ := bind_eq_ok.1 h
    exact ⟨target, htarget⟩
  | _ => cases hnode

end Documents

/-- The references that a named type follows: its own, or those of the schemas it inherits from. -/
def NamedType.followed : SchemaNode → List String
  | .reference path => [path]
  | .schema s => if s.enum.isSome then [] else s.allOf.filterMap SchemaNode.reference?
  | _ => []

namespace Endpoint

variable (d : Document)

def groupedParameters (e : Endpoint) : List Parameter :=
  ((e.namedParameters d).toOption.getD []).filter isGrouped

def bodySchema? (e : Endpoint) : Option SchemaNode :=
  match (e.declaredBody d).toOption.join.bind RequestBody.content with
  | some ((_, media) :: _) => some (media.schema.getD SchemaNode.default)
  | _ => none

def responseSchema? (e : Endpoint) : Option SchemaNode :=
  (declaredResponse? e.operation).bind fun node =>
    ((d.resolveResponse node).toOption.join.bind fun r => r.content.bind chosenMedia?).map
      fun (_, media) => media.schema.getD SchemaNode.default

def uploadSchema? (e : Endpoint) : Option SchemaNode :=
  (e.declaredBody d).toOption.join.bind multipartSchema?

def UploadStep.followed : UploadStep → List String
  | .follow reference => [reference]
  | .properties ps => ps.filterMap fun (_, node) => node.reference?

def typedSchemas (dataFields : List String) (e : Endpoint) : List SchemaNode :=
  (e.groupedParameters d).filterMap Parameter.schema ++
    ((e.bodySchema? d).toList.flatMap fun node =>
      [node, (d.resolveSchema node).toOption.getD node]) ++
    (e.responseSchema? d).toList.flatMap fun node =>
      [node, (unwrapped d dataFields node).toOption.getD node]

def followed (e : Endpoint) : List String :=
  ((e.groupedParameters d).filter fun p => p.type ≠ some "object").filterMap
      (fun p => p.schema.bind SchemaNode.reference?) ++
    ((e.bodySchema? d).bind SchemaNode.reference?).toList ++
    ((e.uploadSchema? d).toList.flatMap fun node =>
      (uploadSteps node).flatMap UploadStep.followed) ++
    ((e.responseSchema? d).bind SchemaNode.reference?).toList

end Endpoint

namespace Run

/-- The endpoints that have calls. -/
def emitted [Text.Transliteration] (r : Run) : List Endpoint :=
  r.document.spec.endpoints.filter fun e =>
    !isSkipped e && !(e.tags r.config r.overrides).isEmpty

variable [Text.Transliteration]

/-- The references in the component schemas and in the schemas of all calls. -/
def schemaReferences (r : Run) : List String :=
  (r.document.componentSchemas.map Prod.snd ++
    r.emitted.flatMap (Endpoint.typedSchemas r.document r.config.dataFields)).flatMap
      SchemaNode.references

/-- The references that a run follows. -/
def followedReferences (r : Run) : List String :=
  (r.document.componentSchemas.flatMap fun entry => NamedType.followed entry.2) ++
    r.emitted.flatMap (Endpoint.followed r.document)

end Run

section Following

variable {d : Document} {reference : String}

namespace NamedType

variable [Text.Transliteration]

theorem resolves_of_ofNode {t : Typing} {style : EnumStyle} {node : SchemaNode} {named : NamedType}
    (h : ofNode d t style node = .ok named) (href : reference ∈ followed node) :
    d.Resolves reference := by
  cases node with
  | reference path =>
    obtain rfl := List.mem_singleton.1 href
    obtain ⟨target, htarget, -⟩ := bind_eq_ok.1 h
    exact ⟨target, htarget⟩
  | schema s =>
    rw [followed] at href
    split at href
    · cases href
    · next henum =>
      rw [Bool.not_eq_true, Option.isSome_eq_false_iff, Option.isNone_iff_eq_none] at henum
      obtain ⟨member, hmember, hreference⟩ := List.mem_filterMap.1 href
      have hinherits : (!s.allOf.isEmpty) = true := by
        cases hall : s.allOf with
        | nil => simp [hall] at hmember
        | cons _ _ => rfl
      rw [ofNode] at h
      simp only [henum, hinherits, if_true] at h
      obtain ⟨groups, hgroups, -⟩ := bind_eq_ok.1 h
      obtain ⟨group, -, hgroup⟩ := exists_of_forall₂_left (forall₂_of_mapM hgroups) hmember
      cases member with
      | reference path =>
        cases hreference
        obtain ⟨target, htarget, -⟩ := bind_eq_ok.1 hgroup
        exact ⟨target, htarget⟩
      | _ => cases hreference
  | _ => cases href

end NamedType

namespace Endpoint

variable {e : Endpoint}

theorem resolves_of_params [Text.Transliteration] {t : Typing} {p : ClassifiedParams}
    (h : e.params d t = .ok p) {q : Parameter} (hq : q ∈ e.groupedParameters d)
    (htype : q.type ≠ some "object") (href : q.schema.bind SchemaNode.reference? = some reference) :
    d.Resolves reference := by
  obtain ⟨named, grouped, hnamed, hgrouped, -⟩ := params_eq_ok h
  have hparameters : e.groupedParameters d = named.filter isGrouped := by
    rw [groupedParameters, hnamed]
    rfl
  rw [hparameters] at hq
  obtain ⟨param, -, hparam⟩ := exists_of_forall₂_left (forall₂_of_mapM hgrouped) hq
  obtain ⟨isObject, hobject, -⟩ := bind_eq_ok.1 hparam
  obtain ⟨node, hnode, hreference⟩ := Option.bind_eq_some_iff.1 href
  rw [isObjectParameter, if_neg htype, hnode] at hobject
  obtain ⟨resolved, hresolved, -⟩ := bind_eq_ok.1 hobject
  exact Document.resolves_of_resolveSchema hresolved hreference

theorem resolves_of_body [Text.Transliteration] {t : Typing} {b : Option Body}
    (h : e.body d t = .ok b)
    (href : (e.bodySchema? d).bind SchemaNode.reference? = some reference) :
    d.Resolves reference := by
  obtain ⟨node, hnode, hreference⟩ := Option.bind_eq_some_iff.1 href
  obtain ⟨declared, hdeclared, h⟩ := bind_eq_ok.1 h
  cases declared with
  | none => simp [bodySchema?, hdeclared, Except.toOption] at hnode
  | some body =>
    have hcontent : body.content = ((e.declaredBody d).toOption.join.bind RequestBody.content) := by
      rw [hdeclared]
      rfl
    rw [bodySchema?, ← hcontent] at hnode
    split at hnode
    · next mediaType media rest hmedia =>
      cases hnode
      simp only [hmedia] at h
      obtain ⟨resolved, hresolved, -⟩ := bind_eq_ok.1 h
      exact Document.resolves_of_resolveSchema hresolved hreference
    · cases hnode

theorem resolves_of_collectFiles {pending : List String} {steps : List UploadStep}
    {fields : List FileField} (h : collectFiles d pending steps = .ok fields)
    {step : UploadStep} (hstep : step ∈ steps) (href : reference ∈ step.followed)
    (hpending : ∀ path, step = .follow path → path ∈ pending) : d.Resolves reference := by
  fun_induction collectFiles d pending steps generalizing fields with
  | case1 => cases hstep
  | case2 pending path rest hpath ih =>
    obtain ⟨resolved, hresolved, hrest⟩ := bind_eq_ok.1 h
    have hhead : d.Resolves path := Document.resolves_of_resolveSchema hresolved rfl
    by_cases hsame : step = .follow path
    · rw [hsame] at href
      rwa [List.mem_singleton.1 href]
    · have hmem : step ∈ resolvedSteps resolved ++ rest :=
        List.mem_append_right _ ((List.mem_cons.1 hstep).resolve_left hsame)
      apply ih resolved hrest hmem
      intro next hnext
      have hne : next ≠ path := fun he => hsame (he ▸ hnext)
      exact List.mem_filter.2 ⟨hpending next hnext, by simpa using hne⟩
  | case3 pending path rest hpath ih =>
    obtain rfl | hmem := List.mem_cons.1 hstep
    · exact absurd (hpending path rfl) hpath
    · exact ih h hmem hpending
  | case4 pending ps rest ih =>
    obtain ⟨found, hfound, h⟩ := bind_eq_ok.1 h
    obtain ⟨more, hmore, -⟩ := bind_eq_ok.1 h
    obtain rfl | hmem := List.mem_cons.1 hstep
    · obtain ⟨property, hproperty, hreference⟩ := List.mem_filterMap.1 href
      obtain ⟨files, hfiles, -⟩ := bind_eq_ok.1 hfound
      obtain ⟨file, -, hfile⟩ := exists_of_forall₂_left (forall₂_of_mapM hfiles) hproperty
      obtain ⟨resolved, hresolved, -⟩ := bind_eq_ok.1 hfile
      exact Document.resolves_of_resolveSchema hresolved hreference
    · exact ih hmore hmem hpending

theorem resolves_of_files {file : Option (List FileField)} (h : e.files d = .ok file)
    {node : SchemaNode} (hnode : e.uploadSchema? d = some node) {step : UploadStep}
    (hstep : step ∈ uploadSteps node) (href : reference ∈ step.followed) :
    d.Resolves reference := by
  obtain ⟨declared, hdeclared, h⟩ := bind_eq_ok.1 h
  rw [uploadSchema?, hdeclared] at hnode
  have hschema : declared.bind multipartSchema? = some node := hnode
  rw [hschema] at h
  obtain ⟨fields, hfields, -⟩ := bind_eq_ok.1 h
  apply resolves_of_collectFiles hfields hstep href
  rintro path rfl
  exact List.mem_append_left _ (List.mem_filterMap.2 ⟨_, hstep, rfl⟩)

theorem resolves_of_response [Text.Transliteration] {t : Typing} {dataFields : List String}
    {answer : ResponseType} (h : e.response d t dataFields = .ok answer)
    (href : (e.responseSchema? d).bind SchemaNode.reference? = some reference) :
    d.Resolves reference := by
  obtain ⟨node, hnode, hreference⟩ := Option.bind_eq_some_iff.1 href
  obtain ⟨declared, hdeclared, hnode⟩ := Option.bind_eq_some_iff.1 hnode
  rw [response, hdeclared] at h
  obtain ⟨r, hr, h⟩ := bind_eq_ok.1 h
  rw [hr] at hnode
  cases r with
  | none => cases hnode
  | some r =>
    obtain ⟨⟨mediaType, media⟩, hmedia, hschema⟩ := Option.map_eq_some_iff.1 hnode
    have hchosen : r.content.bind chosenMedia? = some (mediaType, media) := hmedia
    simp only [responseOf, hchosen] at h
    obtain ⟨target, htarget, -⟩ := bind_eq_ok.1 h
    dsimp only at hschema
    rw [hschema] at htarget
    cases node with
    | reference path =>
      obtain ⟨resolved, hresolved, -⟩ := bind_eq_ok.1 htarget
      exact Document.resolves_of_resolveSchema hresolved hreference
    | _ => cases hreference

end Endpoint

end Following

namespace Run

variable [Text.Transliteration] {r : Run}

theorem resolves_of_shape {e : Endpoint} {s : CallShape} (h : r.shape e = .ok s)
    {reference : String} (href : reference ∈ e.followed r.document) :
    r.document.Resolves reference := by
  obtain ⟨hparams, hbody, hfiles, hresponse⟩ := shape_eq_ok h
  simp only [Endpoint.followed, List.mem_append, List.mem_filterMap, List.mem_filter,
    decide_eq_true_iff, Option.mem_toList, List.mem_flatMap] at href
  obtain ((⟨p, ⟨hp, htype⟩, href⟩ | href) | ⟨node, hnode, step, hstep, href⟩) | href := href
  · exact Endpoint.resolves_of_params hparams hp htype href
  · exact Endpoint.resolves_of_body hbody href
  · exact Endpoint.resolves_of_files hfiles hnode hstep href
  · exact Endpoint.resolves_of_response hresponse href

theorem exists_shape {c : Client} (h : r.client = .ok c) {e : Endpoint} (he : e ∈ r.emitted) :
    ∃ s, r.shape e = .ok s := by
  obtain ⟨calls, interfaces, hcalls, -⟩ := client_eq_ok h
  obtain ⟨hmem, hemitted⟩ := List.mem_filter.1 he
  rw [Bool.and_eq_true] at hemitted
  obtain ⟨hs, htags⟩ := hemitted
  obtain ⟨tag, htag⟩ : ∃ tag, tag ∈ e.tags r.config r.overrides :=
    List.exists_mem_of_ne_nil _ (by simpa using htags)
  have hgroup : (tag, r.document.spec.members r.config r.overrides tag) ∈ r.groups := by
    rw [groups, ApiSpec.groups_eq]
    exact List.mem_map.2 ⟨tag, by simpa using ⟨e, hmem, htag⟩, rfl⟩
  obtain ⟨entry, -, -, names, names', parts, hparts, -⟩ :=
    exists_of_forall₂_left (forall₂_allCalls hcalls) hgroup
  have hbuilt : e ∈ (r.document.spec.members r.config r.overrides tag).filter
      fun e => !isSkipped e :=
    List.mem_filter.2 ⟨ApiSpec.mem_members.2 ⟨hmem, htag⟩, hs⟩
  obtain ⟨part, -, used, names, shape, description, hshape, -⟩ :=
    exists_of_forall₂_left (forall₂_tagParts hparts) hbuilt
  exact ⟨shape, hshape⟩

theorem resolves_of_followed {c : Client} (h : r.client = .ok c) {reference : String}
    (href : reference ∈ r.followedReferences) : r.document.Resolves reference := by
  obtain href | href := List.mem_append.1 href
  · obtain ⟨calls, interfaces, -, hinterfaces, -⟩ := client_eq_ok h
    obtain ⟨entry, hentry, href⟩ := List.mem_flatMap.1 href
    obtain ⟨i, -, named, hnamed, -⟩ :=
      exists_of_forall₂_left (Document.forall₂_interfaces hinterfaces) hentry
    exact NamedType.resolves_of_ofNode hnamed href
  · obtain ⟨e, he, href⟩ := List.mem_flatMap.1 href
    obtain ⟨shape, hshape⟩ := exists_shape h he
    exact resolves_of_shape hshape href

/-- Every reference that a run follows resolves. Nothing looks at the others, so all internal
references in schemas resolve exactly when those do that are only turned into names. -/
theorem schemaReferences_resolve_iff (r : Run) (c : Client) (h : r.client = .ok c) :
    (∀ reference ∈ r.followedReferences, r.document.Resolves reference) ∧
      ((∀ reference ∈ r.schemaReferences, Text.startsWith "#/" reference = true →
          r.document.Resolves reference) ↔
        ∀ reference ∈ r.schemaReferences, reference ∉ r.followedReferences →
          Text.startsWith "#/" reference = true → r.document.Resolves reference) := by
  refine ⟨fun reference href => resolves_of_followed h href, ?_, ?_⟩
  · intro hall reference href _ hinternal
    exact hall reference href hinternal
  · intro hnamed reference href hinternal
    by_cases hfollowed : reference ∈ r.followedReferences
    · exact resolves_of_followed h hfollowed
    · exact hnamed reference href hfollowed hinternal

end Run

end ApiClient

namespace ApiClient.Run

def ownersTree (names : List String) : Json :=
  documentTree [] (("Pet", .object [("type", .string "object"),
      ("properties", .object [("owner", .object [("$ref", .string "#/components/schemas/Owner")])])]) ::
    names.map fun name => (name, .object []))

def ownersRun : Run :=
  .ofTree .default (ownersTree ["Owner"]) (by decide +kernel)

theorem ownersRun_resolves : ∃ c, ownersRun.client = .ok c ∧
    ownersRun.schemaReferences = ["#/components/schemas/Owner"] ∧
    ∀ reference ∈ ownersRun.schemaReferences, Text.startsWith "#/" reference = true →
      ownersRun.document.Resolves reference := by
  obtain ⟨c, hc, -⟩ : ∃ c, ownersRun.client = .ok c ∧
      c.interfaces.map Interface.typeName = ["Owner", "Pet"] :=
    exists_ok_of_map (by decide +kernel)
  obtain ⟨-, hiff⟩ := schemaReferences_resolve_iff ownersRun c hc
  exact ⟨c, hc, by decide +kernel, hiff.2 (by decide +kernel)⟩

def danglingRun : Run :=
  .ofTree .default (ownersTree []) (by decide +kernel)

theorem not_schemaReferences_resolve : ¬ ∀ (r : Run) (c : Client), r.overrides = .none →
    r.client = .ok c → ∀ reference ∈ r.schemaReferences,
      Text.startsWith "#/" reference = true → r.document.Resolves reference := by
  intro resolves
  obtain ⟨c, hc, -⟩ : ∃ c, danglingRun.client = .ok c ∧
      c.interfaces.map Interface.typeName = ["Pet"] :=
    exists_ok_of_map (by decide +kernel)
  have hresolves := resolves danglingRun c rfl hc "#/components/schemas/Owner" (by decide +kernel)
    (by decide)
  revert hresolves
  decide +kernel

end ApiClient.Run
