import ApiClient.Proofs.EndpointReferences

namespace ApiClient

namespace Document

variable {α : Type}

/-- A reference in place of something readable leads to a node that can be read, or out of the
document. -/
def LeadsTo (d : Document) (read : Json → Option α) : RefOr α → Prop
  | .item _ => True
  | .reference path => ∃ found, d.resolve path = .ok found ∧ ∀ v ∈ found, (read v).isSome = true

instance (d : Document) (read : Json → Option α) (node : RefOr α) :
    Decidable (d.LeadsTo read node) :=
  match node with
  | .item _ => isTrue trivial
  | .reference path =>
    match h : d.resolve path with
    | .ok found =>
      decidable_of_iff (∀ v ∈ found, (read v).isSome = true)
        ⟨fun hread => ⟨found, h, hread⟩, fun ⟨found', h', hread⟩ => by
          rw [h] at h'
          cases h'
          exact hread⟩
    | .error _ => isFalse fun ⟨found, h', _⟩ => by
      rw [h] at h'
      cases h'

structure ReadsTargets (d : Document) : Prop where
  parameters : ∀ e ∈ d.spec.endpoints, ∀ node ∈ e.operation.parameters ++ e.pathParameters,
    d.LeadsTo Parameter.ofJson? node
  requestBody : ∀ e ∈ d.spec.endpoints, ∀ node ∈ e.operation.requestBody,
    d.LeadsTo RequestBody.ofJson? node
  responses : ∀ e ∈ d.spec.endpoints, ∀ entry ∈ e.operation.responses,
    d.LeadsTo Response.ofJson? entry.2

variable {d : Document}

theorem resolve_external {path : String} (h : Text.startsWith "#/" path = false) :
    d.resolve path = .ok none := by
  rw [resolve, follow, if_pos List.mem_cons_self, lookup_external h]
  rfl

theorem exists_resolveRef {read : Json → Option α} {node : RefOr α} (h : d.LeadsTo read node) :
    ∃ a, d.resolveRef read node = .ok a := by
  cases node with
  | item a => exact ⟨some a, rfl⟩
  | reference path =>
    obtain ⟨found, hfound, hread⟩ := h
    cases found with
    | none => exact ⟨none, bind_eq_ok.2 ⟨none, hfound, rfl⟩⟩
    | some v =>
      obtain ⟨a, ha⟩ := Option.isSome_iff_exists.1 (hread v rfl)
      refine ⟨some a, bind_eq_ok.2 ⟨some v, hfound, ?_⟩⟩
      simp only [ha]
      rfl

theorem exists_resolveSchema (hall : ∀ reference ∈ d.tree.references, d.Resolves reference)
    {node : SchemaNode} (hnode : node.references ⊆ d.tree.references) :
    ∃ resolved, d.resolveSchema node = .ok resolved := by
  cases node with
  | reference path =>
    refine exists_bind_ok (hall path (hnode (List.mem_singleton_self path))) fun found hfound => ?_
    cases found with
    | none => exact ⟨_, rfl⟩
    | some v => exact ⟨_, rfl⟩
  | _ => exact ⟨_, rfl⟩

end Document

section Endpoints

variable {d : Document} {e : Endpoint}

namespace Endpoint

section Targets

variable (hd : d.ReadsTargets) (he : e ∈ d.spec.endpoints)
include hd he

theorem exists_namedParameters : ∃ params, e.namedParameters d = .ok params := by
  have hdeclared : ∀ nodes ⊆ e.operation.parameters ++ e.pathParameters,
      ∃ params, declaredIn d nodes = .ok params := by
    intro nodes hsub
    have hnodes : ∃ found, nodes.mapM d.resolveParameter = .ok found :=
      exists_mapM_ok fun node hnode =>
        Document.exists_resolveRef (hd.parameters e he node (hsub hnode))
    exact exists_bind_ok hnodes fun found _ => ⟨_, rfl⟩
  refine exists_bind_ok (hdeclared _ (List.subset_append_left _ _)) fun own _ => ?_
  exact exists_bind_ok (hdeclared _ (List.subset_append_right _ _)) fun shared _ => ⟨_, rfl⟩

theorem exists_declaredBody : ∃ b, e.declaredBody d = .ok b := by
  cases hbody : e.operation.requestBody with
  | none => exact ⟨none, by rw [declaredBody, hbody]⟩
  | some node =>
    rw [declaredBody, hbody]
    exact Document.exists_resolveRef (hd.requestBody e he node hbody)

theorem exists_resolveResponse {code : String} {node : RefOr Response}
    (h : e.operation.responses.lookup code = some node) :
    ∃ r, d.resolveResponse node = .ok r :=
  Document.exists_resolveRef (hd.responses e he (code, node) (mem_of_lookup h))

end Targets

section Schemas

variable (hall : ∀ reference ∈ d.tree.references, d.Resolves reference)
include hall

theorem exists_propertyFiles {ps : List (String × SchemaNode)}
    (h : SchemaNode.propertyReferences ps ⊆ d.tree.references) :
    ∃ fields, propertyFiles d ps = .ok fields := by
  have hfile : ∀ p ∈ ps, ∃ field, propertyFile d p = .ok field := by
    intro p hp
    have hp : p.2.references ⊆ d.tree.references := fun path hpath =>
      h (SchemaNode.mem_propertyReferences.2 ⟨p, hp, hpath⟩)
    exact exists_bind_ok (Document.exists_resolveSchema hall hp) fun resolved _ => ⟨_, rfl⟩
  exact exists_bind_ok (exists_mapM_ok hfile) fun fields _ => ⟨_, rfl⟩

theorem exists_collectFiles {pending : List String} {steps : List UploadStep}
    (h : ∀ step ∈ steps, step.references ⊆ d.tree.references) :
    ∃ fields, collectFiles d pending steps = .ok fields := by
  fun_induction collectFiles d pending steps with
  | case1 => exact ⟨[], rfl⟩
  | case2 pending path rest hpath ih =>
    obtain ⟨hstep, hrest⟩ := List.forall_mem_cons.1 h
    have hnode : (SchemaNode.reference path).references ⊆ d.tree.references := hstep
    refine exists_bind_ok (Document.exists_resolveSchema hall hnode) fun resolved hresolved => ?_
    refine ih resolved (List.forall_mem_append.2 ⟨fun next hnext => ?_, hrest⟩)
    exact List.Subset.trans (UploadStep.references_subset_resolvedSteps hnext)
      (Document.references_subset_of_resolveSchema hresolved hnode)
  | case3 pending path rest hpath ih => exact ih (List.forall_mem_cons.1 h).2
  | case4 pending ps rest ih =>
    obtain ⟨hstep, hrest⟩ := List.forall_mem_cons.1 h
    refine exists_bind_ok (exists_propertyFiles hall hstep) fun fields _ => ?_
    exact exists_bind_ok (ih hrest) fun more _ => ⟨_, rfl⟩

theorem exists_files (hd : d.ReadsTargets) (he : e ∈ d.spec.endpoints) :
    ∃ file, e.files d = .ok file := by
  refine exists_bind_ok (exists_declaredBody hd he) fun b hb => ?_
  cases hschema : b.bind multipartSchema? with
  | none => exact ⟨none, rfl⟩
  | some node =>
    obtain ⟨body, rfl, hnode⟩ := Option.bind_eq_some_iff.1 hschema
    have hbody := references_subset_of_declaredBody hb (Document.references_endpoint_subset he)
    have hfields : ∃ fields, schemaFiles d node = .ok fields :=
      exists_collectFiles hall fun step hstep =>
        List.Subset.trans (UploadStep.references_subset_uploadSteps hstep)
          (List.Subset.trans (references_multipartSchema? hnode) hbody)
    exact exists_bind_ok hfields fun fields _ => ⟨_, rfl⟩

variable [Text.Transliteration]

theorem exists_toParam {p : Parameter} (hp : p.references ⊆ d.tree.references) (t : Typing) :
    ∃ param, toParam d t p = .ok param := by
  have hobject : ∃ isObject, isObjectParameter d p = .ok isObject := by
    unfold isObjectParameter
    split
    · exact ⟨true, rfl⟩
    · cases hnode : p.schema with
      | none => exact ⟨false, rfl⟩
      | some node =>
        have hnode : node.references ⊆ d.tree.references := fun path hpath =>
          hp (by simpa [Parameter.references, hnode] using hpath)
        exact exists_bind_ok (Document.exists_resolveSchema hall hnode) fun resolved _ => ⟨_, rfl⟩
  exact exists_bind_ok hobject fun isObject _ => ⟨_, rfl⟩

theorem exists_params (hd : d.ReadsTargets) (he : e ∈ d.spec.endpoints) (t : Typing) :
    ∃ params, e.params d t = .ok params := by
  refine exists_bind_ok (exists_namedParameters hd he) fun named hnamed => ?_
  have hgrouped : ∃ grouped, (named.filter isGrouped).mapM (toParam d t) = .ok grouped :=
    exists_mapM_ok fun p hp => exists_toParam hall (references_subset_of_namedParameters hnamed
      (Document.references_endpoint_subset he) (List.mem_filter.1 hp).1) t
  exact exists_bind_ok hgrouped fun grouped _ => ⟨_, rfl⟩

theorem exists_body (hd : d.ReadsTargets) (he : e ∈ d.spec.endpoints) (t : Typing) :
    ∃ b, e.body d t = .ok b := by
  refine exists_bind_ok (exists_declaredBody hd he) fun declared hdeclared => ?_
  match declared with
  | none => exact ⟨none, rfl⟩
  | some ⟨_, none, _⟩ => exact ⟨none, rfl⟩
  | some ⟨_, some [], _⟩ => exact ⟨none, rfl⟩
  | some ⟨_, some ((mediaType, media) :: rest), _⟩ =>
    have hbody := references_subset_of_declaredBody hdeclared
      (Document.references_endpoint_subset he)
    have hnode := List.Subset.trans (references_firstMedia rfl) hbody
    exact exists_bind_ok (Document.exists_resolveSchema hall hnode) fun resolved _ => ⟨_, rfl⟩

omit [Text.Transliteration] in
theorem exists_unwrapped {node : SchemaNode} (hnode : node.references ⊆ d.tree.references)
    (dataFields : List String) : ∃ target, unwrapped d dataFields node = .ok target := by
  cases node with
  | reference path =>
    exact exists_bind_ok (Document.exists_resolveSchema hall hnode) fun target _ => ⟨_, rfl⟩
  | _ => exact ⟨_, rfl⟩

theorem exists_responseOf {r : Response} (hr : r.references ⊆ d.tree.references) (t : Typing)
    (dataFields : List String) : ∃ answer, responseOf d t dataFields r = .ok answer := by
  unfold responseOf
  split
  · exact ⟨_, rfl⟩
  · next mediaType media hmedia =>
    have hnode := List.Subset.trans (references_chosenMedia hmedia) hr
    exact exists_bind_ok (exists_unwrapped hall hnode dataFields) fun node _ => ⟨_, rfl⟩

theorem exists_response (hd : d.ReadsTargets) (he : e ∈ d.spec.endpoints) (t : Typing)
    (dataFields : List String) : ∃ answer, e.response d t dataFields = .ok answer := by
  unfold response
  split
  · exact ⟨_, rfl⟩
  · next node hdeclared =>
    obtain ⟨code, hcode⟩ := exists_lookup_of_declaredResponse? hdeclared
    refine exists_bind_ok (exists_resolveResponse hd he hcode) fun r hr => ?_
    cases r with
    | none => exact ⟨_, rfl⟩
    | some r =>
      exact exists_responseOf hall (references_subset_of_resolveResponse hr hcode
        (Document.references_endpoint_subset he)) t dataFields

end Schemas

end Endpoint

end Endpoints

namespace Run

variable [Text.Transliteration] {r : Run}

section Steps

variable (hall : ∀ reference ∈ r.document.tree.references, r.document.Resolves reference)
  (hd : r.document.ReadsTargets)
include hall hd

theorem exists_ok_shape {e : Endpoint} (he : e ∈ r.document.spec.endpoints) :
    ∃ shape, r.shape e = .ok shape := by
  refine exists_bind_ok (Endpoint.exists_params hall hd he _) fun params _ => ?_
  refine exists_bind_ok (Endpoint.exists_body hall hd he _) fun body _ => ?_
  refine exists_bind_ok (Endpoint.exists_files hall hd he) fun file _ => ?_
  exact exists_bind_ok (Endpoint.exists_response hall hd he _ _) fun response _ => ⟨_, rfl⟩

omit hall [Text.Transliteration] in
theorem exists_describe {e : Endpoint} (he : e ∈ r.document.spec.endpoints)
    (functionName : String) : ∃ description, r.describe e functionName = .ok description := by
  have hreturns : ∃ returns, r.returns e = .ok returns := by
    unfold returns
    split
    · exact ⟨_, rfl⟩
    · next node hnode =>
      exact exists_bind_ok (Endpoint.exists_resolveResponse hd he hnode) fun _ _ => ⟨_, rfl⟩
  unfold describe
  dsimp only
  split
  · exact ⟨_, rfl⟩
  · exact exists_bind_ok hreturns fun returns _ => ⟨_, rfl⟩

/-- The parts of some endpoints are built one by one, whatever names are given before. -/
theorem exists_tagParts (tag : String) {es : List Endpoint} (hes : es ⊆ r.document.spec.endpoints)
    (used : NameCounts) (names : ParamsTypeNames) :
    ∃ parts names', r.tagParts tag used names es = (.ok parts, names') := by
  induction es generalizing used names with
  | nil => exact ⟨[], names, rfl⟩
  | cons e rest ih =>
    obtain ⟨he, hrest⟩ := List.cons_subset.1 hes
    by_cases hs : isSkipped e = true
    · obtain ⟨parts, names', hparts⟩ := ih hrest used names
      exact ⟨parts, names', by rw [tagParts, if_pos hs, hparts]⟩
    · obtain ⟨shape, hshape⟩ := exists_ok_shape hall hd he
      obtain ⟨description, hd⟩ := exists_describe hd he (used.take (r.functionName e)).1
      cases hpart : r.callPart tag e shape (used.take (r.functionName e)).1 description names with
      | mk part names₁ =>
        obtain ⟨more, names', hmore⟩ := ih hrest (used.take (r.functionName e)).2 names₁
        refine ⟨part :: more, names', ?_⟩
        rw [tagParts_of_drafted (Bool.eq_false_iff.2 hs) hshape hd hpart, hmore]
        rfl

theorem exists_allCalls {groups : List (String × List Endpoint)}
    (hgroups : ∀ group ∈ groups, group.2 ⊆ r.document.spec.endpoints) (index : Nat)
    (names : ParamsTypeNames) : ∃ calls, r.allCalls index names groups = .ok calls := by
  induction groups generalizing index names with
  | nil => exact ⟨[], rfl⟩
  | cons group rest ih =>
    obtain ⟨tag, es⟩ := group
    obtain ⟨hes, hrest⟩ := List.forall_mem_cons.1 hgroups
    obtain ⟨parts, names', hparts⟩ := exists_tagParts hall hd tag hes [] names
    obtain ⟨more, hmore⟩ := ih hrest (index + 1) names'
    rw [allCalls, tagCalls, hparts]
    exact exists_bind_ok ⟨_, rfl⟩ fun calls _ => exists_bind_ok ⟨more, hmore⟩ fun _ _ => ⟨_, rfl⟩

end Steps

end Run

section Named

variable [Text.Transliteration] {d : Document}
  (hall : ∀ reference ∈ d.tree.references, d.Resolves reference) (t : Typing)
include hall

theorem NamedType.exists_inheritedGroup {node : SchemaNode}
    (hnode : node.references ⊆ d.tree.references) :
    ∃ group, inheritedGroup d t node = .ok group := by
  cases node with
  | reference path =>
    exact exists_bind_ok (hall path (hnode (List.mem_singleton_self path))) fun _ _ => ⟨_, rfl⟩
  | _ => exact ⟨_, rfl⟩

theorem NamedType.exists_ofNode (style : EnumStyle) {node : SchemaNode}
    (hnode : node.references ⊆ d.tree.references) : ∃ named, ofNode d t style node = .ok named := by
  cases node with
  | reference path =>
    exact exists_bind_ok (hall path (hnode (List.mem_singleton_self path))) fun _ _ => ⟨_, rfl⟩
  | schema s =>
    have hgroups : ∃ groups, s.allOf.mapM (inheritedGroup d t) = .ok groups :=
      exists_mapM_ok fun m hm => exists_inheritedGroup hall t
        (List.Subset.trans (Schema.references_allOf_subset hm) hnode)
    unfold ofNode
    dsimp only
    split
    · exact ⟨_, rfl⟩
    · split
      · exact exists_bind_ok hgroups fun _ _ => ⟨_, rfl⟩
      · split
        · exact ⟨_, rfl⟩
        · split <;> exact ⟨_, rfl⟩
  | _ => exact ⟨_, rfl⟩

theorem Document.exists_interfaces (style : EnumStyle) :
    ∃ interfaces, d.interfaces t style = .ok interfaces := by
  refine exists_mapM_ok fun entry hentry => ?_
  have hnode : entry.2.references ⊆ d.tree.references := references_componentSchema_subset hentry
  exact exists_bind_ok (NamedType.exists_ofNode hall t style hnode) fun _ _ => ⟨_, rfl⟩

end Named

namespace Run

variable [Text.Transliteration]

/-- A run succeeds, whatever the configuration and the overrides, when every internal reference in
the tree resolves and those of endpoints lead to what can be read in their place. -/
theorem client_succeeds (r : Run)
    (hrefs : ∀ reference ∈ r.document.tree.references,
      Text.startsWith "#/" reference = true → r.document.Resolves reference)
    (hreads : r.document.ReadsTargets) : ∃ c, r.client = .ok c := by
  have hall : ∀ reference ∈ r.document.tree.references, r.document.Resolves reference := by
    intro reference href
    cases hinternal : Text.startsWith "#/" reference with
    | true => exact hrefs reference href hinternal
    | false => exact ⟨none, Document.resolve_external hinternal⟩
  have hgroups : ∀ group ∈ r.groups, group.2 ⊆ r.document.spec.endpoints := by
    intro group hgroup
    rw [groups_spec hgroup]
    exact List.filter_sublist.subset
  refine exists_bind_ok (exists_allCalls hall hreads hgroups 0 .empty) fun calls _ => ?_
  exact exists_bind_ok (Document.exists_interfaces hall _ _) fun interfaces _ => ⟨_, rfl⟩

end Run

end ApiClient

namespace ApiClient.Run

/-- References to references, to a form that inherits from another, and out of the document. -/
def linkedTree : Json :=
  let link (path : String) : Json := .object [("$ref", .string path)]
  .object [
    ("paths", .object [("/photos/{id}", .object [
      ("parameters", .array [link "#/components/parameters/PhotoId"]),
      ("post", .object [("tags", Json.strings ["photos"]),
        ("requestBody", link "#/components/requestBodies/Photo"),
        ("responses", .object [("default", link "common.json#/responses/Done")])])])]),
    ("components", .object [
      ("parameters", .object [("PhotoId", link "#/components/parameters/Id"),
        ("Id", .object [("name", .string "id"), ("in", .string "path"),
          ("schema", link "#/components/schemas/Key")])]),
      ("requestBodies", .object [("Photo", .object [("content", .object [("multipart/form-data",
        .object [("schema", link "#/components/schemas/PhotoForm")])])])]),
      ("schemas", .object [("Key", .object [("type", .string "integer")]),
        ("PhotoForm", .object [("type", .string "object"),
          ("allOf", .array [link "#/components/schemas/Form"]),
          ("properties", .object [("owner", link "#/components/schemas/PhotoForm")])]),
        ("Form", .object [("properties", .object [("file", .object [("type", .string "string"),
          ("format", .string "binary")])])])])])]

def linkedRun : Run where
  document := (ofTree .default linkedTree (by decide +kernel)).document
  config := .default
  overrides := { Overrides.none with className := fun tag => some (tag ++ "Api") }

theorem linkedRun_succeeds :
    (∀ reference ∈ linkedRun.document.tree.references,
      Text.startsWith "#/" reference = true → linkedRun.document.Resolves reference) ∧
    linkedRun.document.ReadsTargets ∧ ∃ c, linkedRun.client = .ok c := by
  have hrefs : ∀ reference ∈ linkedRun.document.tree.references,
      Text.startsWith "#/" reference = true → linkedRun.document.Resolves reference := by
    decide +kernel
  have hreads : linkedRun.document.ReadsTargets :=
    ⟨by decide +kernel, by decide +kernel, by decide +kernel⟩
  exact ⟨hrefs, hreads, client_succeeds linkedRun hrefs hreads⟩

end ApiClient.Run
