import ApiClient.Client.Calls
import ApiClient.Proofs.TreeReferences

namespace ApiClient.Endpoint

section Steps

def UploadStep.references : UploadStep → List String
  | follow path => [path]
  | properties ps => SchemaNode.propertyReferences ps

theorem mem_memberSteps {step : UploadStep} {members : List SchemaNode} :
    step ∈ memberSteps members ↔ ∃ m ∈ members, step ∈ uploadSteps m := by
  induction members with
  | nil => simp [memberSteps]
  | cons m members ih => rw [memberSteps, List.mem_append, ih, List.exists_mem_cons_iff]

theorem uploadSteps_schema (s : Schema) :
    uploadSteps (.schema s) = memberSteps s.allOf ++ [.properties (s.properties.getD [])] := by
  cases s
  rfl

theorem mem_uploadSteps_schema {step : UploadStep} {s : Schema} :
    step ∈ uploadSteps (.schema s) ↔ (∃ m ∈ s.allOf, step ∈ uploadSteps m) ∨
      step = .properties (s.properties.getD []) := by
  rw [uploadSteps_schema, List.mem_append, mem_memberSteps, List.mem_singleton]

theorem sizeOf_lt_of_mem_allOf {s : Schema} {m : SchemaNode} (h : m ∈ s.allOf) :
    sizeOf m < sizeOf (SchemaNode.schema s) := by
  have hlt := List.sizeOf_lt_of_mem h
  cases s
  simp only [SchemaNode.schema.sizeOf_spec, Schema.mk.sizeOf_spec]
  dsimp only at hlt
  omega

/-- A step of a node is the node itself, the last one of its schema, or a step of a member. -/
@[elab_as_elim]
theorem mem_uploadSteps_induction {step : UploadStep} {motive : SchemaNode → Prop}
    (follow : ∀ path, step = .follow path → motive (.reference path))
    (properties : ∀ s : Schema, step = .properties (s.properties.getD []) → motive (.schema s))
    (member : ∀ (s : Schema) (m : SchemaNode), m ∈ s.allOf → motive m → motive (.schema s)) :
    ∀ node, step ∈ uploadSteps node → motive node
  | .reference path, h => follow path (by simpa [uploadSteps] using h)
  | .schema s, h => by
    obtain ⟨m, hm, hstep⟩ | hown := mem_uploadSteps_schema.1 h
    · exact member s m hm (mem_uploadSteps_induction follow properties member m hstep)
    · exact properties s hown
  | .literal _, h => by simp [uploadSteps] at h
  | .other _, h => by simp [uploadSteps] at h
termination_by node => sizeOf node
decreasing_by exact sizeOf_lt_of_mem_allOf hm

theorem UploadStep.references_subset_uploadSteps {step : UploadStep} {node : SchemaNode}
    (h : step ∈ uploadSteps node) : step.references ⊆ node.references := by
  refine mem_uploadSteps_induction ?follow ?properties ?member node h
  case follow =>
    intro path hstep
    rw [hstep]
    exact List.Subset.refl _
  case properties =>
    intro s hstep path hpath
    rw [SchemaNode.references, Schema.mem_references]
    rw [hstep, UploadStep.references] at hpath
    cases hproperties : s.properties with
    | none =>
      rw [hproperties] at hpath
      cases hpath
    | some ps =>
      rw [hproperties] at hpath
      exact .inl ⟨ps, rfl, hpath⟩
  case member =>
    exact fun s m hm hsub => List.Subset.trans hsub (Schema.references_allOf_subset hm)

theorem UploadStep.references_subset_resolvedSteps {step : UploadStep} {node : SchemaNode}
    (h : step ∈ resolvedSteps node) : step.references ⊆ node.references := by
  cases node with
  | schema s => exact references_subset_uploadSteps h
  | _ => cases h

end Steps

section Declared

theorem mem_addShared {p : Parameter} {declared shared : List Parameter}
    (h : p ∈ addShared declared shared) : p ∈ declared ∨ p ∈ shared := by
  induction shared generalizing declared with
  | nil => exact .inl h
  | cons q shared ih =>
    rw [addShared] at h
    split at h
    · exact (ih h).imp_right (List.mem_cons_of_mem q)
    · obtain hdeclared | hshared := ih h
      · obtain hdeclared | hq := List.mem_append.1 hdeclared
        · exact .inl hdeclared
        · exact .inr (List.mem_cons.2 (.inl (List.mem_singleton.1 hq)))
      · exact .inr (List.mem_cons_of_mem q hshared)

variable {d : Document} {e : Endpoint}

theorem references_subset_of_declaredIn {nodes : List (RefOr Parameter)} {params : List Parameter}
    (h : declaredIn d nodes = .ok params)
    (hnodes : ∀ node ∈ nodes, node.references Parameter.references ⊆ d.tree.references)
    {p : Parameter} (hp : p ∈ params) : p.references ⊆ d.tree.references := by
  obtain ⟨found, hfound, h⟩ := bind_eq_ok.1 h
  cases h
  rw [List.mem_filterMap] at hp
  obtain ⟨_, hmem, rfl⟩ := hp
  obtain ⟨node, hnode, hresolved⟩ := exists_of_forall₂ (forall₂_of_mapM hfound) hmem
  exact Document.references_subset_of_resolveRef Parameter.carries hresolved (hnodes node hnode)

theorem mem_references_parameters {node : RefOr Parameter}
    (h : node ∈ e.operation.parameters ∨ node ∈ e.pathParameters) :
    node.references Parameter.references ⊆ e.references := by
  intro path hpath
  rw [references, Operation.references, List.append_assoc, List.append_assoc]
  obtain h | h := h
  · exact List.mem_append_left _ (List.mem_flatMap.2 ⟨node, h, hpath⟩)
  · simp only [List.mem_append]
    exact .inr (.inr (.inr (List.mem_flatMap.2 ⟨node, h, hpath⟩)))

theorem references_subset_of_namedParameters {params : List Parameter}
    (h : e.namedParameters d = .ok params) (he : e.references ⊆ d.tree.references) {p : Parameter}
    (hp : p ∈ params) : p.references ⊆ d.tree.references := by
  obtain ⟨own, hown, h⟩ := bind_eq_ok.1 h
  obtain ⟨shared, hshared, h⟩ := bind_eq_ok.1 h
  cases h
  have hnode : ∀ node, node ∈ e.operation.parameters ∨ node ∈ e.pathParameters →
      node.references Parameter.references ⊆ d.tree.references :=
    fun node hnode => List.Subset.trans (mem_references_parameters hnode) he
  obtain hp | hp := mem_addShared (List.mem_filter.1 hp).1
  · exact references_subset_of_declaredIn hown (fun node h => hnode node (.inl h)) hp
  · exact references_subset_of_declaredIn hshared (fun node h => hnode node (.inr h)) hp

theorem references_requestBody {node : RefOr RequestBody}
    (h : e.operation.requestBody = some node) :
    node.references RequestBody.references ⊆ e.references := by
  intro path hpath
  have hbody : path ∈ e.operation.requestBody.toList.flatMap
      (RefOr.references RequestBody.references) := by simpa [h] using hpath
  simp only [references, Operation.references, List.mem_append]
  exact .inl (.inl (.inr hbody))

theorem references_subset_of_declaredBody {b : RequestBody} (h : e.declaredBody d = .ok (some b))
    (he : e.references ⊆ d.tree.references) : b.references ⊆ d.tree.references := by
  rw [declaredBody] at h
  split at h
  · cases h
  · next node hnode =>
    exact Document.references_subset_of_resolveRef RequestBody.carries h
      (List.Subset.trans (references_requestBody hnode) he)

theorem references_response {code : String} {node : RefOr Response}
    (h : e.operation.responses.lookup code = some node) :
    node.references Response.references ⊆ e.references := by
  intro path hpath
  simp only [references, Operation.references, List.mem_append]
  exact .inl (.inr (List.mem_flatMap.2 ⟨_, mem_of_lookup h, hpath⟩))

theorem references_subset_of_resolveResponse {r : Response} {code : String}
    {node : RefOr Response} (h : d.resolveResponse node = .ok (some r))
    (hnode : e.operation.responses.lookup code = some node)
    (he : e.references ⊆ d.tree.references) : r.references ⊆ d.tree.references :=
  Document.references_subset_of_resolveRef Response.carries h
    (List.Subset.trans (references_response hnode) he)

theorem exists_lookup_of_declaredResponse? {o : Operation} {node : RefOr Response}
    (h : declaredResponse? o = some node) : ∃ code, o.responses.lookup code = some node := by
  obtain ⟨code, -, hcode⟩ := List.exists_of_findSome?_eq_some h
  exact ⟨code, hcode⟩

end Declared

section Media

variable {content : Content} {name : String} {media : MediaType} {node : SchemaNode}

theorem references_mediaType (h : (name, media) ∈ content) :
    media.references ⊆ content.references := by
  intro path hpath
  exact List.mem_flatMap.2 ⟨_, h, hpath⟩

theorem references_schemaOrDefault :
    (media.schema.getD SchemaNode.default).references ⊆ media.references := by
  cases h : media.schema with
  | none => exact List.nil_subset _
  | some node => simp [MediaType.references, h]

theorem references_firstMedia {b : RequestBody} {rest : Content}
    (h : b.content = some ((name, media) :: rest)) :
    (media.schema.getD SchemaNode.default).references ⊆ b.references := by
  intro path hpath
  have hfirst : (name, media) ∈ (name, media) :: rest := List.mem_cons_self
  have hcontained := references_mediaType hfirst (references_schemaOrDefault hpath)
  simpa [RequestBody.references, h] using hcontained

theorem references_chosenMedia {r : Response}
    (h : r.content.bind chosenMedia? = some (name, media)) :
    (media.schema.getD SchemaNode.default).references ⊆ r.references := by
  obtain ⟨content, hcontent, hchosen⟩ := Option.bind_eq_some_iff.1 h
  have hmem : (name, media) ∈ content := by
    obtain hchosen | ⟨-, hchosen⟩ := Option.or_eq_some_iff.1 hchosen
    · exact List.mem_of_find?_eq_some hchosen
    · exact List.mem_of_mem_head? hchosen
  intro path hpath
  have hcontained := references_mediaType hmem (references_schemaOrDefault hpath)
  simpa [Response.references, hcontent] using hcontained

theorem references_multipartSchema? {b : RequestBody} (h : multipartSchema? b = some node) :
    node.references ⊆ b.references := by
  obtain ⟨media, hmedia, hnode⟩ := Option.bind_eq_some_iff.1 h
  obtain ⟨content, hcontent, hmedia⟩ := Option.bind_eq_some_iff.1 hmedia
  intro path hpath
  have hheld : path ∈ media.references := by simpa [MediaType.references, hnode] using hpath
  have hcontained := references_mediaType (mem_of_lookup hmedia) hheld
  simpa [RequestBody.references, hcontent] using hcontained

end Media

end ApiClient.Endpoint
