import ApiClient.Proofs.EndpointReferences

namespace ApiClient

namespace Endpoint

section Search

variable {d : Document} {pending : List String} {field : FileField}

def IsFileOf (d : Document) (ps : List (String × SchemaNode)) (field : FileField) : Prop :=
  ∃ p ∈ ps, ∃ resolved, d.resolveSchema p.2 = .ok resolved ∧
    fileField? p.1 resolved = some field

/-- A file field that working off a step comes to while only pending references are followed. -/
inductive UploadStep.Finds (d : Document) (pending : List String) :
    UploadStep → FileField → Prop where
  | properties {ps : List (String × SchemaNode)} {field : FileField} (h : IsFileOf d ps field) :
      Finds d pending (.properties ps) field
  | follow {path : String} {resolved : SchemaNode} {step : UploadStep} {field : FileField}
      (hpending : path ∈ pending) (hresolved : d.resolveSchema (.reference path) = .ok resolved)
      (hstep : step ∈ resolvedSteps resolved) (hfinds : Finds d pending step field) :
      Finds d pending (.follow path) field

namespace UploadStep

theorem Finds.mono {pending' : List String} (hsub : pending ⊆ pending') {step : UploadStep}
    (h : step.Finds d pending field) : step.Finds d pending' field := by
  induction h with
  | properties hfile => exact .properties hfile
  | follow hpending hresolved hstep _ ih => exact .follow (hsub hpending) hresolved hstep ih

/-- What is found with a reference is found without it, from the step itself or from what the
reference resolves to: the last visit to the reference is enough. -/
theorem Finds.without {path : String} {resolved : SchemaNode}
    (hresolved : d.resolveSchema (.reference path) = .ok resolved) {step : UploadStep}
    (h : step.Finds d pending field) :
    step.Finds d (Document.without path pending) field ∨
      ∃ next ∈ resolvedSteps resolved, next.Finds d (Document.without path pending) field := by
  induction h with
  | properties hfile => exact .inl (.properties hfile)
  | @follow path' resolved' next field hpending hnext hstep _ ih =>
    obtain hfinds | hlater := ih
    · by_cases hsame : path' = path
      · subst hsame
        rw [hnext] at hresolved
        cases hresolved
        exact .inr ⟨next, hstep, hfinds⟩
      · exact .inl (.follow (Document.mem_without.2 ⟨hpending, hsame⟩) hnext hstep hfinds)
    · exact .inr hlater

theorem without_subset (path : String) : Document.without path pending ⊆ pending :=
  List.filter_sublist.subset

theorem finds_properties {ps : List (String × SchemaNode)} :
    (UploadStep.properties ps).Finds d pending field ↔ IsFileOf d ps field :=
  ⟨fun | .properties hfile => hfile, .properties⟩

theorem finds_follow {path : String} {resolved : SchemaNode}
    (hresolved : d.resolveSchema (.reference path) = .ok resolved) (hpending : path ∈ pending) :
    (UploadStep.follow path).Finds d pending field ↔
      ∃ next ∈ resolvedSteps resolved, next.Finds d (Document.without path pending) field := by
  constructor
  · intro h
    obtain hfinds | hnext := h.without hresolved
    · cases hfinds with
      | follow hkept => exact absurd rfl (Document.mem_without.1 hkept).2
    · exact hnext
  · rintro ⟨next, hnext, hfinds⟩
    exact .follow hpending hresolved hnext (hfinds.mono (without_subset path))

end UploadStep

theorem propertyFiles_cons (d : Document) (p : String × SchemaNode)
    (ps : List (String × SchemaNode)) : propertyFiles d (p :: ps) = do
      let file ← propertyFile d p
      let files ← propertyFiles d ps
      return file.toList ++ files := by
  rw [propertyFiles, List.mapM_cons, propertyFiles]
  cases propertyFile d p with
  | error failure => rfl
  | ok file =>
    cases ps.mapM (propertyFile d) with
    | error failure => rfl
    | ok files => cases file <;> rfl

theorem mem_propertyFiles {ps : List (String × SchemaNode)} {fields : List FileField}
    (h : propertyFiles d ps = .ok fields) : field ∈ fields ↔ IsFileOf d ps field := by
  obtain ⟨found, hfound, h⟩ := bind_eq_ok.1 h
  cases h
  have hproperties := forall₂_of_mapM hfound
  rw [List.mem_filterMap]
  constructor
  · rintro ⟨_, hmem, rfl⟩
    obtain ⟨p, hp, hfile⟩ := exists_of_forall₂ hproperties hmem
    obtain ⟨resolved, hresolved, hfile⟩ := bind_eq_ok.1 hfile
    exact ⟨p, hp, resolved, hresolved, Except.ok.inj hfile⟩
  · rintro ⟨p, hp, resolved, hresolved, hfield⟩
    obtain ⟨file, hmem, hfile⟩ := exists_of_forall₂_left hproperties hp
    obtain ⟨resolved', hresolved', hfile⟩ := bind_eq_ok.1 hfile
    rw [hresolved] at hresolved'
    cases hresolved'
    exact ⟨file, hmem, (Except.ok.inj hfile).symm.trans hfield⟩

theorem mem_collectFiles {steps : List UploadStep} {fields : List FileField}
    (h : collectFiles d pending steps = .ok fields) :
    field ∈ fields ↔ ∃ step ∈ steps, step.Finds d pending field := by
  fun_induction collectFiles d pending steps generalizing fields with
  | case1 =>
    cases h
    simp
  | case2 pending path rest hpath ih =>
    obtain ⟨resolved, hresolved, hrest⟩ := bind_eq_ok.1 h
    rw [ih resolved hrest, List.exists_mem_cons_iff, UploadStep.finds_follow hresolved hpath]
    constructor
    · rintro ⟨step, hstep, hfinds⟩
      obtain hnext | hrest := List.mem_append.1 hstep
      · exact .inl ⟨step, hnext, hfinds⟩
      · exact .inr ⟨step, hrest, hfinds.mono (UploadStep.without_subset path)⟩
    · rintro (⟨next, hnext, hfinds⟩ | ⟨step, hstep, hfinds⟩)
      · exact ⟨next, List.mem_append_left _ hnext, hfinds⟩
      · obtain hfinds | ⟨next, hnext, hfinds⟩ := hfinds.without hresolved
        · exact ⟨step, List.mem_append_right _ hstep, hfinds⟩
        · exact ⟨next, List.mem_append_left _ hnext, hfinds⟩
  | case3 pending path rest hpath ih =>
    rw [ih h, List.exists_mem_cons_iff]
    refine (or_iff_right fun hfinds => ?_).symm
    cases hfinds with
    | follow hpending => exact hpath hpending
  | case4 pending ps rest ih =>
    obtain ⟨found, hfound, h⟩ := bind_eq_ok.1 h
    obtain ⟨more, hmore, h⟩ := bind_eq_ok.1 h
    cases h
    rw [List.mem_append, mem_propertyFiles hfound, ih hmore, List.exists_mem_cons_iff,
      UploadStep.finds_properties]

end Search

/-- A file field of a node: one of the properties of its schema, or of a member of `allOf`, in turn
behind references. -/
inductive HasUpload (d : Document) : SchemaNode → FileField → Prop where
  | property {node : SchemaNode} {s : Schema} {field : FileField}
      (hs : d.resolveSchema node = .ok (.schema s))
      (hfile : IsFileOf d (s.properties.getD []) field) : HasUpload d node field
  | member {node : SchemaNode} {s : Schema} {m : SchemaNode} {field : FileField}
      (hs : d.resolveSchema node = .ok (.schema s)) (hm : m ∈ s.allOf)
      (hfield : HasUpload d m field) : HasUpload d node field

variable {d : Document} {field : FileField} {pending : List String}

theorem HasUpload.congr {node node' : SchemaNode} (h : HasUpload d node field)
    (hsame : d.resolveSchema node' = d.resolveSchema node) : HasUpload d node' field := by
  cases h with
  | property hs hfile => exact .property (hsame.trans hs) hfile
  | member hs hm hfield => exact .member (hsame.trans hs) hm hfield

theorem hasUpload_of_finds {step : UploadStep} (h : step.Finds d pending field) {node : SchemaNode}
    (hstep : step ∈ uploadSteps node) : HasUpload d node field := by
  induction h generalizing node with
  | properties hfile =>
    refine mem_uploadSteps_induction (fun path hpath => ?_) (fun s hs => ?_)
      (fun s m hm hupload => .member rfl hm hupload) node hstep
    · cases hpath
    · cases hs
      exact .property rfl hfile
  | @follow path resolved next field _ hresolved hnext _ ih =>
    refine mem_uploadSteps_induction (fun path' hpath => ?_) (fun s hs => ?_)
      (fun s m hm hupload => .member rfl hm hupload) node hstep
    · cases hpath
      cases resolved with
      | schema s => exact (ih hnext).congr hresolved
      | _ => cases hnext
    · cases hs

theorem exists_finds_of_resolveSchema {node : SchemaNode} {s : Schema}
    (hs : d.resolveSchema node = .ok (.schema s))
    (hnode : ∀ path, .follow path ∈ uploadSteps node → path ∈ pending)
    (h : ∃ step ∈ uploadSteps (.schema s), step.Finds d pending field) :
    ∃ step ∈ uploadSteps node, step.Finds d pending field := by
  cases node with
  | reference path =>
    obtain ⟨step, hstep, hfinds⟩ := h
    have hpath : .follow path ∈ uploadSteps (.reference path) := by simp [uploadSteps]
    exact ⟨.follow path, hpath, .follow (hnode path hpath) hs hstep hfinds⟩
  | schema s' =>
    cases hs
    exact h
  | _ => cases hs

theorem mem_of_resolveSchema {node : SchemaNode} {s : Schema}
    (hs : d.resolveSchema node = .ok (.schema s)) (htree : d.tree.references ⊆ pending)
    (hnode : ∀ path, .follow path ∈ uploadSteps node → path ∈ pending) {path : String}
    (hpath : .follow path ∈ uploadSteps (.schema s)) : path ∈ pending := by
  cases node with
  | reference reference =>
    obtain ⟨found, hfound, h⟩ := bind_eq_ok.1 hs
    cases found with
    | none => cases h
    | some v =>
      rw [← Except.ok.inj h] at hpath
      have hstep := UploadStep.references_subset_uploadSteps hpath (List.mem_singleton_self path)
      have hv := SchemaNode.references_ofJson_subset v hstep
      exact htree (Document.references_subset_of_follow hfound hv)
  | schema s' =>
    cases hs
    exact hnode path hpath
  | _ => cases hs

theorem HasUpload.exists_finds {node : SchemaNode} (h : HasUpload d node field)
    (htree : d.tree.references ⊆ pending)
    (hnode : ∀ path, .follow path ∈ uploadSteps node → path ∈ pending) :
    ∃ step ∈ uploadSteps node, step.Finds d pending field := by
  induction h with
  | @property node s field hs hfile =>
    have hstep : .properties (s.properties.getD []) ∈ uploadSteps (.schema s) :=
      mem_uploadSteps_schema.2 (.inr rfl)
    exact exists_finds_of_resolveSchema hs hnode ⟨_, hstep, .properties hfile⟩
  | @member node s m field hs hm hfield ih =>
    have hmember : ∀ step ∈ uploadSteps m, step ∈ uploadSteps (.schema s) :=
      fun step hstep => mem_uploadSteps_schema.2 (.inl ⟨m, hm, hstep⟩)
    obtain ⟨step, hstep, hfinds⟩ :=
      ih fun path hpath => mem_of_resolveSchema hs htree hnode (hmember _ hpath)
    exact exists_finds_of_resolveSchema hs hnode ⟨step, hmember step hstep, hfinds⟩

/-- The file fields of a schema are exactly those of its properties and of all schemas that it
inherits from, however the references among them run. -/
theorem mem_schemaFiles {node : SchemaNode} {fields : List FileField}
    (h : schemaFiles d node = .ok fields) : field ∈ fields ↔ HasUpload d node field := by
  rw [mem_collectFiles h]
  constructor
  · rintro ⟨step, hstep, hfinds⟩
    exact hasUpload_of_finds hfinds hstep
  · intro hupload
    apply hupload.exists_finds (List.subset_append_right _ _)
    intro path hpath
    exact List.mem_append_left _ (List.mem_filterMap.2 ⟨_, hpath, rfl⟩)

end Endpoint

end ApiClient
