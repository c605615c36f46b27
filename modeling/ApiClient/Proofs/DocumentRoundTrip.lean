import ApiClient.Document.Printer
import ApiClient.Document.Reader
import ApiClient.Proofs.SchemaRoundTrip

namespace ApiClient

namespace Json

section Fields

variable {α : Type} {read : Json → Option α} {write : α → Json}

/-- Whatever is read is read again from what is written of it. -/
def Restores (read : Json → Option α) (write : α → Json) : Prop :=
  ∀ v a, read v = some a → read (write a) = some a

theorem lenientText_ofOption (text : Option String) :
    lenientText (some (ofOption .string text)) = text := by
  cases text <;> rfl

theorem lenientText_string (text : String) : lenientText (some (.string text)) = some text :=
  rfl

theorem lenientFlag_bool (flag : Bool) : lenientFlag (some (.bool flag)) = some flag :=
  rfl

theorem lenientFlag_ofOption (flag : Option Bool) :
    lenientFlag (some (ofOption .bool flag)) = flag := by
  cases flag <;> rfl

theorem lenientTexts_strings (texts : List String) :
    lenientTexts (some (strings texts)) = texts := by
  rw [lenientTexts, Option.map_some, Option.getD_some, strings, scalarTexts, List.filterMap_map]
  exact List.filterMap_some

theorem optional?_some {v : Json} (hv : v ≠ .null) :
    optional? read (some v) = (read v).map some := by
  cases v with
  | null => exact absurd rfl hv
  | _ => rfl

theorem optional?_cases {field : Option Json} {o : Option α} (h : optional? read field = some o) :
    o = none ∨ ∃ v a, v ≠ .null ∧ read v = some a ∧ o = some a := by
  cases field with
  | none =>
    cases h
    exact .inl rfl
  | some v =>
    by_cases hv : v = .null
    · rw [hv] at h
      cases h
      exact .inl rfl
    · rw [optional?_some hv] at h
      obtain ⟨a, ha, rfl⟩ := Option.map_eq_some_iff.1 h
      exact .inr ⟨v, a, hv, ha, rfl⟩

theorem exists_read_of_optional? {field : Option Json} {a : α}
    (h : optional? read field = some (some a)) : ∃ v, read v = some a := by
  obtain hnone | ⟨v, _, -, hv, heq⟩ := optional?_cases h
  · cases hnone
  · cases heq
    exact ⟨v, hv⟩

theorem optional?_string (text : Option String) :
    optional? string? (some (ofOption .string text)) = some text := by
  cases text <;> rfl

theorem optional?_ofOption (h : Restores read write)
    (hnull : ∀ v a, v ≠ .null → read v = some a → write a ≠ .null) {field : Option Json}
    {o : Option α} (ho : optional? read field = some o) :
    optional? read (some (ofOption write o)) = some o := by
  obtain rfl | ⟨v, a, hv, ha, rfl⟩ := optional?_cases ho
  · rfl
  · rw [ofOption, optional?_some (hnull v a hv ha), h v a ha, Option.map_some]

theorem orDefault?_some (h : Restores read write) {default a : α}
    (hdefault : read (write default) = some default) {field : Option Json}
    (ha : orDefault? default read field = some a) :
    orDefault? default read (some (write a)) = some a := by
  cases field with
  | none =>
    cases ha
    exact hdefault
  | some v => exact h v a ha

theorem restores_listOf? (h : Restores read write) :
    Restores (listOf? read) fun l => .array (l.map write) := by
  intro v l hl
  cases v with
  | array items =>
    change (l.map write).mapM read = some l
    change items.mapM read = some l at hl
    induction items generalizing l with
    | nil =>
      obtain rfl : l = [] := by simpa using hl.symm
      rfl
    | cons item items ih =>
      rw [List.mapM_cons] at hl
      obtain ⟨a, ha, hl⟩ := Option.bind_eq_some_iff.1 hl
      obtain ⟨more, hmore, hl⟩ := Option.bind_eq_some_iff.1 hl
      cases hl
      rw [List.map_cons, List.mapM_cons, h item a ha, ih more hmore]
      rfl
  | _ => cases hl

theorem keys_readEntries? {entries : List (String × Json)} {map : List (String × α)}
    (h : readEntries? read entries = some map) :
    map.map Prod.fst = entries.map Prod.fst := by
  induction entries generalizing map with
  | nil =>
    cases h
    rfl
  | cons entry entries ih =>
    obtain ⟨a, -, h⟩ := Option.bind_eq_some_iff.1 h
    obtain ⟨rest, hrest, h⟩ := Option.bind_eq_some_iff.1 h
    cases h
    rw [List.map_cons, List.map_cons, ih hrest]

theorem read_of_mem_readEntries? {entries : List (String × Json)} {map : List (String × α)}
    (h : readEntries? read entries = some map) {entry : String × α} (hentry : entry ∈ map) :
    ∃ v, read v = some entry.2 := by
  induction entries generalizing map with
  | nil =>
    cases h
    cases hentry
  | cons first entries ih =>
    obtain ⟨a, ha, h⟩ := Option.bind_eq_some_iff.1 h
    obtain ⟨more, hmore, h⟩ := Option.bind_eq_some_iff.1 h
    cases h
    obtain rfl | hentry := List.mem_cons.1 hentry
    · exact ⟨first.2, ha⟩
    · exact ih hmore hentry

theorem exists_read_of_mapOf? {v : Json} {map : List (String × α)} (h : mapOf? read v = some map)
    {entry : String × α} (hentry : entry ∈ map) : ∃ w, read w = some entry.2 := by
  cases v with
  | object entries =>
    obtain ⟨items, hitems, rfl⟩ := Option.map_eq_some_iff.1 h
    exact read_of_mem_readEntries? hitems (mem_of_mem_mapOfEntries hentry)
  | _ => cases h

theorem exists_read_of_orDefault? {field : Option Json} {map : List (String × α)}
    (h : orDefault? [] (mapOf? read) field = some map) {entry : String × α}
    (hentry : entry ∈ map) : ∃ w, read w = some entry.2 := by
  cases field with
  | none =>
    cases h
    cases hentry
  | some v => exact exists_read_of_mapOf? h hentry

theorem readEntries?_map {map : List (String × α)}
    (h : ∀ entry ∈ map, read (write entry.2) = some entry.2) :
    readEntries? read (map.map fun (key, a) => (key, write a)) = some map := by
  induction map with
  | nil => rfl
  | cons entry map ih =>
    obtain ⟨hentry, hmap⟩ := List.forall_mem_cons.1 h
    rw [List.map_cons, readEntries?, hentry, ih hmap]
    rfl

theorem restores_mapOf? (h : Restores read write) :
    Restores (mapOf? read) (writeEntries write) := by
  intro v map hmap
  have hread : ∀ entry ∈ map, read (write entry.2) = some entry.2 := by
    intro entry hentry
    obtain ⟨w, hw⟩ := exists_read_of_mapOf? hmap hentry
    exact h w entry.2 hw
  rw [writeEntries, mapOf?, readEntries?_map hread, Option.map_some,
    mapOfEntries_eq_self (nodup_keys_mapOf? hmap)]

/-- A map that may be missing is restored, since it is written even when it is empty. -/
theorem orDefault?_mapOf? (h : Restores read write) {field : Option Json}
    {map : List (String × α)} (hmap : orDefault? [] (mapOf? read) field = some map) :
    orDefault? [] (mapOf? read) (some (writeEntries write map)) = some map :=
  orDefault?_some (restores_mapOf? h) rfl hmap

theorem object_ne_null (entries : List (String × Json)) : object entries ≠ .null := by
  intro h
  cases h

theorem fields?_object (names : List String) (entries : List (String × Json)) :
    (object entries).fields? names = some fun name => entries.lookup name :=
  rfl

end Fields

end Json

open Json

section Parts

variable {α : Type} {read : Json → Option α} {write : α → Json}

theorem RefOr.restores (h : Restores read write) (hwrite : ∀ a, (write a).reference? = none) :
    Restores (RefOr.ofJson? read) (RefOr.toJson write) := by
  intro v node hnode
  rw [ofJson?] at hnode
  split at hnode
  · cases hnode
    rfl
  · obtain ⟨a, ha, rfl⟩ := Option.map_eq_some_iff.1 hnode
    rw [toJson, ofJson?, hwrite a]
    exact congrArg (Option.map RefOr.item) (h v a ha)

theorem SchemaNode.restores :
    Restores (fun v => some (SchemaNode.ofJson v)) SchemaNode.toJson := by
  intro v node hnode
  cases hnode
  exact congrArg some v.isRestored.node

theorem SchemaNode.toJson_ofJson_ne_null {v : Json} (hv : v ≠ .null) :
    (SchemaNode.ofJson v).toJson ≠ .null := by
  cases v with
  | null => exact absurd rfl hv
  | object entries =>
    obtain ⟨written, hwritten⟩ := SchemaNode.toJson_ofJson_object entries
    rw [hwritten]
    exact object_ne_null written
  | _ => nofun

theorem schemaField?_ofOption {field : Option Json} {schema : Option SchemaNode}
    (h : schemaField? field = some schema) :
    schemaField? (some (ofOption SchemaNode.toJson schema)) = some schema := by
  refine optional?_ofOption SchemaNode.restores (fun v node hv hnode => ?_) h
  cases hnode
  exact SchemaNode.toJson_ofJson_ne_null hv

end Parts

theorem Info.restores : Restores Info.ofJson? Info.toJson := by
  intro v i h
  simp only [ofJson?, Option.bind_eq_bind, Option.bind_eq_some_iff] at h
  obtain ⟨field, -, h⟩ := h
  cases h
  simp [ofJson?, toJson, fields?_object, List.lookup_cons, lenientText_ofOption]

theorem Parameter.restores : Restores Parameter.ofJson? Parameter.toJson := by
  intro v p h
  simp only [ofJson?, Option.bind_eq_bind, Option.bind_eq_some_iff] at h
  obtain ⟨field, -, schema, hschema, h⟩ := h
  cases h
  simp [ofJson?, toJson, fields?_object, List.lookup_cons, lenientText_ofOption, lenientText_string,
    lenientFlag_bool, schemaField?_ofOption hschema]

theorem MediaType.restores : Restores MediaType.ofJson? MediaType.toJson := by
  intro v m h
  simp only [ofJson?, Option.bind_eq_bind, Option.bind_eq_some_iff] at h
  obtain ⟨field, -, schema, hschema, h⟩ := h
  cases h
  simp [ofJson?, toJson, fields?_object, List.lookup_cons, schemaField?_ofOption hschema]

theorem contentField?_contentJson {field : Option Json} {content : Option Content}
    (h : contentField? field = some content) :
    contentField? (some (contentJson content)) = some content :=
  optional?_ofOption (restores_mapOf? MediaType.restores) (fun _ _ _ _ => object_ne_null _) h

theorem RequestBody.restores : Restores RequestBody.ofJson? RequestBody.toJson := by
  intro v b h
  simp only [ofJson?, Option.bind_eq_bind, Option.bind_eq_some_iff] at h
  obtain ⟨field, -, content, hcontent, h⟩ := h
  cases h
  simp [ofJson?, toJson, fields?_object, List.lookup_cons, lenientText_ofOption,
    lenientFlag_ofOption, contentField?_contentJson hcontent]

theorem Response.restores : Restores Response.ofJson? Response.toJson := by
  intro v b h
  simp only [ofJson?, Option.bind_eq_bind, Option.bind_eq_some_iff] at h
  obtain ⟨field, -, content, hcontent, h⟩ := h
  cases h
  simp [ofJson?, toJson, fields?_object, List.lookup_cons, lenientText_ofOption,
    contentField?_contentJson hcontent]

theorem parametersField?_array {field : Option Json} {parameters : List (RefOr Parameter)}
    (h : parametersField? field = some parameters) :
    parametersField? (some (.array (parameters.map (RefOr.toJson Parameter.toJson)))) =
      some parameters :=
  orDefault?_some (restores_listOf? (RefOr.restores Parameter.restores fun _ => rfl)) rfl h

theorem bodyField?_ofOption {field : Option Json} {body : Option (RefOr RequestBody)}
    (h : optional? (RefOr.ofJson? RequestBody.ofJson?) field = some body) :
    optional? (RefOr.ofJson? RequestBody.ofJson?)
      (some (ofOption (RefOr.toJson RequestBody.toJson) body)) = some body :=
  optional?_ofOption (RefOr.restores RequestBody.restores fun _ => rfl)
    (fun _ b _ _ => by cases b <;> exact object_ne_null _) h

theorem responsesField?_writeEntries {field : Option Json}
    {responses : List (String × RefOr Response)}
    (h : orDefault? [] (mapOf? (RefOr.ofJson? Response.ofJson?)) field = some responses) :
    orDefault? [] (mapOf? (RefOr.ofJson? Response.ofJson?))
      (some (writeEntries (RefOr.toJson Response.toJson) responses)) = some responses :=
  orDefault?_mapOf? (RefOr.restores Response.restores fun _ => rfl) h

theorem Operation.restores : Restores Operation.ofJson? Operation.toJson := by
  intro v o h
  cases v with
  | object entries =>
    simp only [ofJson?, Option.bind_eq_bind, Option.bind_eq_some_iff] at h
    obtain ⟨parameters, hparameters, body, hbody, responses, hresponses, h⟩ := h
    cases h
    simp [ofJson?, toJson, List.lookup_cons, lenientText_ofOption, lenientTexts_strings,
      parametersField?_array hparameters, bodyField?_ofOption hbody,
      responsesField?_writeEntries hresponses, keys]
  | _ => cases h

theorem operationField?_ofOption {field : Option Json} {o : Option Operation}
    (h : optional? Operation.ofJson? field = some o) :
    optional? Operation.ofJson? (some (ofOption Operation.toJson o)) = some o :=
  optional?_ofOption Operation.restores (fun _ _ _ _ => object_ne_null _) h

theorem PathItem.restores : Restores PathItem.ofJson? PathItem.toJson := by
  intro v p h
  simp only [ofJson?, Option.bind_eq_bind, Option.bind_eq_some_iff] at h
  obtain ⟨field, -, get, hget, put, hput, post, hpost, delete, hdelete, patch, hpatch, parameters,
    hparameters, h⟩ := h
  cases h
  simp [ofJson?, toJson, fields?_object, List.lookup_cons, operationField?_ofOption hget,
    operationField?_ofOption hput, operationField?_ofOption hpost,
    operationField?_ofOption hdelete, operationField?_ofOption hpatch,
    parametersField?_array hparameters]

theorem Components.restores : Restores Components.ofJson? Components.toJson := by
  intro v c h
  simp only [ofJson?, Option.bind_eq_bind, Option.bind_eq_some_iff] at h
  obtain ⟨field, -, schemas, hschemas, parameters, hparameters, bodies, hbodies, responses,
    hresponses, h⟩ := h
  cases h
  simp [ofJson?, toJson, fields?_object, List.lookup_cons,
    orDefault?_mapOf? SchemaNode.restores hschemas,
    orDefault?_mapOf? (RefOr.restores Parameter.restores fun _ => rfl) hparameters,
    orDefault?_mapOf? (RefOr.restores RequestBody.restores fun _ => rfl) hbodies,
    orDefault?_mapOf? (RefOr.restores Response.restores fun _ => rfl) hresponses]

theorem ApiSpec.restores : Restores ApiSpec.ofJson? ApiSpec.toJson := by
  intro v spec h
  simp only [ofJson?, Option.bind_eq_bind, Option.bind_eq_some_iff] at h
  obtain ⟨field, -, openapi, -, swagger, -, info, hinfo, paths, hpaths, components, hcomponents,
    h⟩ := h
  cases h
  simp [ofJson?, toJson, fields?_object, List.lookup_cons, optional?_string,
    orDefault?_some Info.restores rfl hinfo, orDefault?_mapOf? PathItem.restores hpaths,
    optional?_ofOption Components.restores (fun _ _ _ _ => object_ne_null _) hcomponents]

/-- A description that is read is the same when it is written and read again, and so is what any
value is read as in the place of a schema. -/
theorem ApiSpec.read_write_read :
    (∀ v spec, ApiSpec.ofJson? v = some spec → ApiSpec.ofJson? spec.toJson = some spec) ∧
      ∀ v, SchemaNode.ofJson (SchemaNode.ofJson v).toJson = SchemaNode.ofJson v :=
  ⟨ApiSpec.restores, fun v => v.isRestored.node⟩

/-- A version that is a number, one tag in place of a list, a flag in words, a path and a schema
with unknown keys, and a schema of which one keyword is malformed. -/
def sloppyTree : Json :=
  .object [("info", .object [("version", .number (.integer 2))]),
    ("paths", .object [("/a", .object [("x-note", .null), ("get", .object [("x-note", .null),
      ("tags", .string "pet"), ("parameters", .array [.object [("name", .string "id"),
        ("required", .string " TRUE"), ("schema", .object [("x-note", .null),
          ("type", .array [.string "string", .string "null"]), ("items", .object [])])],
        .object [("$ref", .string "#/parameters/size")]]),
      ("requestBody", .object [("content", .object [("*/*", .object [("schema", .object
        [("$ref", .null), ("properties", .array [])])])])])])])])]

theorem sloppyTree_restores : ∃ spec, ApiSpec.ofJson? sloppyTree = some spec ∧
    spec.info.version = some "2" ∧ ApiSpec.ofJson? spec.toJson = some spec := by
  obtain ⟨spec, hspec, hversion⟩ := Option.map_eq_some_iff.1
    (show (ApiSpec.ofJson? sloppyTree).map (fun spec => spec.info.version) = some (some "2") by
      decide +kernel)
  exact ⟨spec, hspec, hversion, ApiSpec.read_write_read.1 sloppyTree spec hspec⟩

end ApiClient
