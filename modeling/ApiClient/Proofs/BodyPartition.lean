import ApiClient.Client.Generation
import ApiClient.Proofs.DocumentRoundTrip
import ApiClient.Proofs.UploadFields

namespace ApiClient

section Readings

open Json

theorem PathItem.exists_read_operation {v : Json} {item : PathItem}
    (hitem : PathItem.ofJson? v = some item) {method : HttpMethod} {o : Operation}
    (ho : item.operation? method = some o) : ∃ w, Operation.ofJson? w = some o := by
  simp only [ofJson?, Option.bind_eq_bind, Option.bind_eq_some_iff] at hitem
  obtain ⟨field, -, get, hget, put, hput, post, hpost, delete, hdelete, patch, hpatch, _, _,
    hitem⟩ := hitem
  cases hitem
  have hfield : ∃ v, optional? Operation.ofJson? v = some (some o) := by
    cases method with
    | get => exact ⟨_, hget.trans (congrArg some ho)⟩
    | put => exact ⟨_, hput.trans (congrArg some ho)⟩
    | post => exact ⟨_, hpost.trans (congrArg some ho)⟩
    | delete => exact ⟨_, hdelete.trans (congrArg some ho)⟩
    | patch => exact ⟨_, hpatch.trans (congrArg some ho)⟩
  obtain ⟨v, hv⟩ := hfield
  exact exists_read_of_optional? hv

theorem ApiSpec.exists_read_operation {v : Json} {spec : ApiSpec}
    (hspec : ApiSpec.ofJson? v = some spec) {e : Endpoint} (he : e ∈ spec.endpoints) :
    ∃ w, Operation.ofJson? w = some e.operation := by
  obtain ⟨item, hitem, ho, -⟩ := ApiSpec.mem_endpoints.1 he
  simp only [ofJson?, Option.bind_eq_bind, Option.bind_eq_some_iff] at hspec
  obtain ⟨field, -, openapi, -, swagger, -, info, -, paths, hpaths, components, -, hspec⟩ := hspec
  cases hspec
  obtain ⟨w, hw⟩ := exists_read_of_orDefault? hpaths hitem
  exact PathItem.exists_read_operation hw ho

theorem Operation.exists_read_requestBody {v : Json} {o : Operation}
    (ho : Operation.ofJson? v = some o) {node : RefOr RequestBody}
    (hnode : o.requestBody = some node) :
    ∃ w, RefOr.ofJson? RequestBody.ofJson? w = some node := by
  cases v with
  | object entries =>
    simp only [ofJson?, Option.bind_eq_bind, Option.bind_eq_some_iff] at ho
    obtain ⟨parameters, -, body, hbody, responses, -, ho⟩ := ho
    cases ho
    exact exists_read_of_optional? (hbody.trans (congrArg some hnode))
  | _ => cases ho

theorem RequestBody.exists_read_schema {v : Json} {b : RequestBody}
    (hb : RequestBody.ofJson? v = some b) {content : Content} (hcontent : b.content = some content)
    {entry : String × MediaType} (hentry : entry ∈ content) {node : SchemaNode}
    (hnode : entry.2.schema = some node) : ∃ w, node = SchemaNode.ofJson w := by
  simp only [ofJson?, Option.bind_eq_bind, Option.bind_eq_some_iff] at hb
  obtain ⟨field, -, content, hread, hb⟩ := hb
  cases hb
  obtain ⟨w, hw⟩ := exists_read_of_optional? (hread.trans (congrArg some hcontent))
  obtain ⟨m, hm⟩ := exists_read_of_mapOf? hw hentry
  simp only [MediaType.ofJson?, Option.bind_eq_bind, Option.bind_eq_some_iff] at hm
  obtain ⟨field, -, schema, hschema, hm⟩ := hm
  have hread : schemaField? (field "schema") = some (some node) := by
    rw [hschema, ← hnode, ← Option.some.inj hm]
  obtain ⟨w, hw⟩ := exists_read_of_optional? hread
  exact ⟨w, (Option.some.inj hw).symm⟩

theorem Endpoint.exists_read_declaredBody {d : Document} {e : Endpoint}
    (he : e ∈ d.spec.endpoints) {b : RequestBody} (hb : e.declaredBody d = .ok (some b)) :
    ∃ v, RequestBody.ofJson? v = some b := by
  obtain ⟨v, hv⟩ := ApiSpec.exists_read_operation d.reads he
  rw [declaredBody] at hb
  cases hnode : e.operation.requestBody with
  | none =>
    rw [hnode] at hb
    cases hb
  | some node =>
    rw [hnode] at hb
    obtain ⟨w, hw⟩ := Operation.exists_read_requestBody hv hnode
    cases node with
    | reference path =>
      obtain ⟨found, -, hb⟩ := bind_eq_ok.1 hb
      cases found with
      | none => cases hb
      | some target =>
        dsimp only at hb
        split at hb
        · next b' hread =>
          cases hb
          exact ⟨target, hread⟩
        · cases hb
    | item b' =>
      cases hb
      rw [RefOr.ofJson?] at hw
      split at hw
      · cases hw
      · obtain ⟨_, hread, hitem⟩ := Option.map_eq_some_iff.1 hw
        cases hitem
        exact ⟨w, hread⟩

theorem Document.exists_read_resolveSchema {d : Document} {v : Json} {resolved : SchemaNode}
    (h : d.resolveSchema (SchemaNode.ofJson v) = .ok resolved) :
    ∃ w, resolved = SchemaNode.ofJson w := by
  cases hv : SchemaNode.ofJson v with
  | reference path =>
    rw [hv] at h
    obtain ⟨found, -, h⟩ := bind_eq_ok.1 h
    cases found with
    | none => exact ⟨v, (Except.ok.inj h).symm.trans hv.symm⟩
    | some target => exact ⟨target, (Except.ok.inj h).symm⟩
  | _ =>
    rw [hv] at h
    exact ⟨v, (Except.ok.inj h).symm.trans hv.symm⟩

end Readings

namespace Endpoint

section Properties

theorem nodup_keys_of_mediaSchema {d : Document} {e : Endpoint} (he : e ∈ d.spec.endpoints)
    {b : RequestBody} (hb : e.declaredBody d = .ok (some b)) {mediaType : String}
    {media : MediaType} {rest : Content} (hcontent : b.content = some ((mediaType, media) :: rest))
    {node : SchemaNode} (hnode : media.schema = some node) {s : Schema}
    (hs : d.resolveSchema node = .ok (.schema s)) {ps : List (String × SchemaNode)}
    (hps : s.properties = some ps) : (ps.map Prod.fst).Nodup := by
  obtain ⟨v, hv⟩ := exists_read_declaredBody he hb
  obtain ⟨w, rfl⟩ := RequestBody.exists_read_schema hv hcontent List.mem_cons_self hnode
  obtain ⟨w', hw'⟩ := Document.exists_read_resolveSchema hs
  exact (SchemaNode.isSettled_of_ofJson hw'.symm).nodup_keys hps

variable [Text.Transliteration]

theorem body_of_object {d : Document} {t : Typing} {e : Endpoint} {b : RequestBody}
    (hb : e.declaredBody d = .ok (some b)) {mediaType : String} {media : MediaType} {rest : Content}
    (hcontent : b.content = some ((mediaType, media) :: rest)) {node : SchemaNode}
    (hnode : media.schema = some node) {s : Schema} (hs : d.resolveSchema node = .ok (.schema s))
    (hobject : s.isObjectType = true) (hproperties : s.properties.isSome = true) :
    ∃ answer, e.body d t = .ok (some answer) ∧ answer.shape = .properties (bodyProperties t s) := by
  rw [body, hb]
  simp only [bind, Except.bind, hcontent, hnode, Option.getD_some, hs]
  have hshape : bodyShape t node (.schema s) = .properties (bodyProperties t s) := by
    simp [bodyShape, hobject, hproperties]
  exact ⟨_, rfl, hshape⟩

theorem mem_bodyProperties_keys {t : Typing} {s : Schema} {ps : List (String × SchemaNode)}
    (hps : s.properties = some ps) (hnodup : (ps.map Prod.fst).Nodup) {p : String × SchemaNode}
    (hp : p ∈ ps) :
    p.1 ∈ (bodyProperties t s).map BodyProperty.key ↔ isUpload p.2 = false := by
  rw [bodyProperties, hps, Option.getD_some, List.map_map, List.mem_map]
  constructor
  · rintro ⟨q, hq, hkey⟩
    obtain ⟨hmem, hupload⟩ := List.mem_filter.1 hq
    obtain rfl := List.inj_on_of_nodup_map hnodup hmem hp hkey
    simpa using hupload
  · intro hupload
    exact ⟨p, List.mem_filter.2 ⟨hp, by simp [hupload]⟩, rfl⟩

end Properties

section Uploads

variable {d : Document}

theorem exists_fileField?_iff {key title : String} {node : SchemaNode} :
    (∃ multiple, fileField? key node = some ⟨title, multiple⟩) ↔
      key = title ∧ isUpload node = true := by
  cases node with
  | schema s =>
    simp only [fileField?, isUpload, SchemaNode.schema?, Option.any_some, Bool.or_eq_true]
    cases s.isBinary with
    | true => simp
    | false => cases s.isBinaryArray <;> simp
  | _ => simp [fileField?, isUpload, SchemaNode.schema?]

/-- Without inherited members, the uploads of a schema are those of its own properties. -/
theorem hasUpload_iff_of_allOf_nil {form : SchemaNode} {s : Schema}
    (hs : d.resolveSchema form = .ok (.schema s)) (hall : s.allOf = []) {field : FileField} :
    HasUpload d form field ↔ IsFileOf d (s.properties.getD []) field := by
  constructor
  · intro h
    cases h with
    | property hs' hfile =>
      cases hs.symm.trans hs'
      exact hfile
    | member hs' hm =>
      cases hs.symm.trans hs'
      rw [hall] at hm
      cases hm
  · exact .property hs

theorem uploadSteps_of_allOf_nil {s : Schema} (hall : s.allOf = []) :
    uploadSteps (.schema s) = [.properties (s.properties.getD [])] := by
  rw [uploadSteps_schema, hall]
  rfl

theorem exists_collectFiles_properties (pending : List String) {ps : List (String × SchemaNode)}
    (h : ∀ p ∈ ps, ∃ resolved, d.resolveSchema p.2 = .ok resolved) :
    ∃ fields, collectFiles d pending [.properties ps] = .ok fields := by
  have hfile : ∀ p ∈ ps, ∃ file, propertyFile d p = .ok file := by
    intro p hp
    obtain ⟨resolved, hresolved⟩ := h p hp
    exact ⟨fileField? p.1 resolved, by rw [propertyFile, hresolved]; rfl⟩
  obtain ⟨files, hfiles⟩ := exists_mapM_ok hfile
  refine ⟨files.filterMap id ++ [], ?_⟩
  rw [collectFiles, propertyFiles, hfiles, collectFiles]
  rfl

/-- Without inherited members, the files of a schema are found once all its properties resolve. -/
theorem exists_schemaFiles {form : SchemaNode} {s : Schema}
    (hs : d.resolveSchema form = .ok (.schema s)) (hall : s.allOf = [])
    (h : ∀ p ∈ s.properties.getD [], ∃ resolved, d.resolveSchema p.2 = .ok resolved) :
    ∃ fields, schemaFiles d form = .ok fields := by
  cases form with
  | reference path =>
    have hsteps : uploadSteps (.reference path) = [.follow path] := rfl
    have hpending : path ∈ [UploadStep.follow path].filterMap UploadStep.reference? ++
        d.tree.references := List.mem_cons_self
    rw [schemaFiles, hsteps, collectFiles, if_pos hpending, hs]
    change ∃ fields, collectFiles d _ (uploadSteps (.schema s) ++ []) = .ok fields
    rw [List.append_nil, uploadSteps_of_allOf_nil hall]
    exact exists_collectFiles_properties _ h
  | schema s' =>
    cases hs
    rw [schemaFiles, uploadSteps_of_allOf_nil hall]
    exact exists_collectFiles_properties _ h
  | _ => cases hs

theorem files_of_form {e : Endpoint} {b : RequestBody} (hb : e.declaredBody d = .ok (some b))
    {form : SchemaNode} (hform : multipartSchema? b = some form) :
    e.files d = (schemaFiles d form).map fun fields =>
      if fields.isEmpty then none else some fields := by
  rw [files, hb]
  simp only [bind, Except.bind, Option.bind, hform]
  cases schemaFiles d form <;> rfl

theorem exists_files_ok {e : Endpoint} {b : RequestBody} (hb : e.declaredBody d = .ok (some b))
    {form : SchemaNode} (hform : multipartSchema? b = some form) {s : Schema}
    (hs : d.resolveSchema form = .ok (.schema s)) (hall : s.allOf = [])
    (h : ∀ p ∈ s.properties.getD [], ∃ resolved, d.resolveSchema p.2 = .ok resolved) :
    ∃ file, e.files d = .ok file := by
  obtain ⟨fields, hfields⟩ := exists_schemaFiles hs hall h
  rw [files_of_form hb hform, hfields]
  exact ⟨_, rfl⟩

def fileTitles (file : Option (List FileField)) : List String :=
  (file.getD []).map FileField.title

/-- The titles of an endpoint without a form, or those that a search of its form finds. -/
theorem fileTitles_of_files {e : Endpoint} {file : Option (List FileField)}
    (h : e.files d = .ok file) : ∃ declared, e.declaredBody d = .ok declared ∧
      ((declared.bind multipartSchema? = none ∧ fileTitles file = []) ∨
        ∃ form fields, declared.bind multipartSchema? = some form ∧
          schemaFiles d form = .ok fields ∧ fileTitles file = fields.map FileField.title) := by
  obtain ⟨declared, hdeclared, h⟩ := bind_eq_ok.1 h
  refine ⟨declared, hdeclared, ?_⟩
  cases hform : declared.bind multipartSchema? with
  | none =>
    rw [hform] at h
    cases h
    exact .inl ⟨rfl, rfl⟩
  | some form =>
    rw [hform] at h
    obtain ⟨fields, hfields, h⟩ := bind_eq_ok.1 h
    cases h
    refine .inr ⟨form, fields, rfl, hfields, ?_⟩
    cases fields <;> rfl

theorem mem_map_title {form : SchemaNode} {fields : List FileField}
    (h : schemaFiles d form = .ok fields) {title : String} :
    title ∈ fields.map FileField.title ↔ ∃ multiple, HasUpload d form ⟨title, multiple⟩ := by
  rw [List.mem_map]
  constructor
  · rintro ⟨field, hfield, rfl⟩
    exact ⟨field.multiple, (mem_schemaFiles h).1 hfield⟩
  · rintro ⟨multiple, hupload⟩
    exact ⟨_, (mem_schemaFiles h).2 hupload, rfl⟩

theorem mem_fileTitles {e : Endpoint} {b : RequestBody} (hb : e.declaredBody d = .ok (some b))
    {file : Option (List FileField)} (hfile : e.files d = .ok file) {title : String} :
    title ∈ fileTitles file ↔ ∃ form, multipartSchema? b = some form ∧
      ∃ multiple, HasUpload d form ⟨title, multiple⟩ := by
  obtain ⟨declared, hdeclared, hcases⟩ := fileTitles_of_files hfile
  cases hb.symm.trans hdeclared
  rw [Option.bind_some] at hcases
  obtain ⟨hnone, htitles⟩ | ⟨form, fields, hform, hfields, htitles⟩ := hcases
  · simp [hnone, htitles]
  · rw [htitles, mem_map_title hfields]
    simp [hform]

theorem hasUpload_property_iff {form : SchemaNode} {s : Schema}
    (hs : d.resolveSchema form = .ok (.schema s)) (hall : s.allOf = [])
    {ps : List (String × SchemaNode)} (hps : s.properties = some ps)
    (hnodup : (ps.map Prod.fst).Nodup) {p : String × SchemaNode} (hp : p ∈ ps)
    {resolved : SchemaNode} (hresolved : d.resolveSchema p.2 = .ok resolved) :
    (∃ multiple, HasUpload d form ⟨p.1, multiple⟩) ↔ isUpload resolved = true := by
  simp only [hasUpload_iff_of_allOf_nil hs hall, hps, Option.getD_some]
  constructor
  · rintro ⟨multiple, q, hq, target, htarget, hfield⟩
    obtain ⟨hkey, hupload⟩ := exists_fileField?_iff.1 ⟨multiple, hfield⟩
    obtain rfl := List.inj_on_of_nodup_map hnodup hq hp hkey
    cases hresolved.symm.trans htarget
    exact hupload
  · intro hupload
    obtain ⟨multiple, hfield⟩ := exists_fileField?_iff.2 ⟨rfl, hupload⟩
    exact ⟨multiple, p, hp, resolved, hresolved, hfield⟩

end Uploads

/-- A property whose own schema is an upload exactly when it is written as one is sent as a property
or as a file, never as both, if the multipart form has the same schema as the first media type. The
files of a call are those of its multipart form alone, and are found if its properties resolve. -/
theorem body_files_partition [Text.Transliteration] (d : Document) (t : Typing) (e : Endpoint)
    (he : e ∈ d.spec.endpoints) (b : RequestBody) (hb : e.declaredBody d = .ok (some b))
    (mediaType : String) (media : MediaType) (rest : Content)
    (hcontent : b.content = some ((mediaType, media) :: rest)) (node : SchemaNode)
    (hnode : media.schema = some node) (s : Schema) (hs : d.resolveSchema node = .ok (.schema s))
    (hobject : s.isObjectType = true) (hall : s.allOf = []) (ps : List (String × SchemaNode))
    (hps : s.properties = some ps) :
    (∀ form, multipartSchema? b = some form → d.resolveSchema form = .ok (.schema s) →
      (∀ p ∈ ps, ∃ resolved, d.resolveSchema p.2 = .ok resolved) →
        ∃ file, e.files d = .ok file) ∧
    ∃ answer props, e.body d t = .ok (some answer) ∧ answer.shape = .properties props ∧
      ∀ file, e.files d = .ok file →
        (∀ title, title ∈ fileTitles file ↔ ∃ form, multipartSchema? b = some form ∧
          ∃ multiple, HasUpload d form ⟨title, multiple⟩) ∧
        ∀ p ∈ ps, ∀ resolved, d.resolveSchema p.2 = .ok resolved →
          isUpload resolved = isUpload p.2 →
            (p.1 ∈ props.map BodyProperty.key ↔ isUpload p.2 = false) ∧
            ∀ form, multipartSchema? b = some form → d.resolveSchema form = .ok (.schema s) →
              (p.1 ∈ props.map BodyProperty.key ↔ p.1 ∉ fileTitles file) := by
  have hnodup : (ps.map Prod.fst).Nodup := nodup_keys_of_mediaSchema he hb hcontent hnode hs hps
  obtain ⟨answer, hanswer, hshape⟩ := body_of_object (t := t) hb hcontent hnode hs hobject
    (by rw [hps]; rfl)
  refine ⟨fun form hform hs' hresolve => ?_, answer, _, hanswer, hshape, fun file hfile => ?_⟩
  · apply exists_files_ok hb hform hs' hall
    rwa [hps]
  · refine ⟨fun title => mem_fileTitles hb hfile, fun p hp resolved hresolved hsame => ?_⟩
    have hkey := mem_bodyProperties_keys (t := t) hps hnodup hp
    refine ⟨hkey, fun form hform hs' => ?_⟩
    have htitle : p.1 ∈ fileTitles file ↔ isUpload resolved = true := by
      rw [mem_fileTitles hb hfile, ← hasUpload_property_iff hs' hall hps hnodup hp hresolved]
      simp [hform]
    rw [hkey, htitle, hsame, Bool.not_eq_true]

def photoSchema : Schema :=
  { Schema.ofType "object" with
    properties := some [("name", .schema (Schema.ofType "string")),
      ("photo", .schema { Schema.ofType "string" with format := some "binary" })] }

def photoBody (mediaType : String) : RequestBody :=
  ⟨none, some [(mediaType, ⟨some (.schema photoSchema)⟩)], none⟩

def photoPost (mediaType : String) : Endpoint :=
  ⟨"/a", .post, ⟨none, none, none, [], [], some (.item (photoBody mediaType)), [], none, []⟩, []⟩

def photoSpec (mediaType : String) : ApiSpec :=
  ⟨none, none, .empty, [("/a", ⟨none, none, some (photoPost mediaType).operation, none, none, []⟩)],
    none⟩

def photoDocument (mediaType : String) : Document :=
  ⟨(photoSpec mediaType).toJson, photoSpec mediaType, rfl⟩

theorem photoForm_partition : ∃ answer props file,
    (photoPost "multipart/form-data").body (photoDocument "multipart/form-data") (.plain "API") =
      .ok (some answer) ∧ answer.shape = .properties props ∧
    (photoPost "multipart/form-data").files (photoDocument "multipart/form-data") = .ok file ∧
    ∀ p ∈ photoSchema.properties.getD [],
      (p.1 ∈ props.map BodyProperty.key ↔ p.1 ∉ fileTitles file) := by
  obtain ⟨hfiles, answer, props, hanswer, hshape, hproperties⟩ :=
    body_files_partition (photoDocument "multipart/form-data") (.plain "API")
      (photoPost "multipart/form-data") (List.mem_singleton_self _)
      (photoBody "multipart/form-data") rfl _ _ _ rfl _ rfl photoSchema rfl rfl rfl _ rfl
  have hplain : ∀ p ∈ photoSchema.properties.getD [],
      (photoDocument "multipart/form-data").resolveSchema p.2 = .ok p.2 :=
    List.forall_mem_cons.2 ⟨rfl, List.forall_mem_singleton.2 rfl⟩
  obtain ⟨file, hfile⟩ := hfiles (.schema photoSchema) rfl rfl fun p hp => ⟨p.2, hplain p hp⟩
  refine ⟨answer, props, file, hanswer, hshape, hfile, fun p hp => ?_⟩
  exact ((hproperties file hfile).2 p hp p.2 (hplain p hp) rfl).2 (.schema photoSchema) rfl rfl

theorem not_body_files_partition : ¬ ∀ (d : Document) (t : Typing) (e : Endpoint),
    e ∈ d.spec.endpoints → ∀ b, e.declaredBody d = .ok (some b) →
      ∀ mediaType media rest, b.content = some ((mediaType, media) :: rest) →
        ∀ node, media.schema = some node → ∀ s, d.resolveSchema node = .ok (.schema s) →
          s.isObjectType = true → s.allOf = [] → ∀ ps, s.properties = some ps →
            ∀ answer props file, e.body d t = .ok (some answer) → answer.shape = .properties props →
              e.files d = .ok file →
                ∀ p ∈ ps, (p.1 ∈ props.map BodyProperty.key ↔ p.1 ∉ fileTitles file) := by
  intro partition
  have hphoto := partition (photoDocument "application/json") (.plain "API")
    (photoPost "application/json") (List.mem_singleton_self _) (photoBody "application/json") rfl
    _ _ _ rfl _ rfl photoSchema rfl rfl rfl _ rfl _ _ none rfl rfl rfl
    ("photo", .schema { Schema.ofType "string" with format := some "binary" })
    (List.mem_cons_of_mem _ (List.mem_singleton_self _))
  exact absurd (hphoto.2 (by decide)) (by decide)

end Endpoint

end ApiClient
