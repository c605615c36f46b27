import ApiClient.Proofs.Places

namespace ApiClient

open Json

def ApiSpec.keys : List String := ["openapi", "swagger", "info", "paths", "components"]

def PathItem.keys : List String := ["get", "put", "post", "delete", "patch", "parameters"]

def Parameter.keys : List String := ["name", "in", "description", "required", "schema", "type"]

def RequestBody.keys : List String := ["description", "content", "required"]

def Response.keys : List String := ["description", "content"]

def MediaType.keys : List String := ["schema"]

def Components.keys : List String := ["schemas", "parameters", "requestBodies", "responses"]

def PathItem.withOperation (method : HttpMethod) (o : Option Operation) (p : PathItem) : PathItem :=
  match method with
  | .get => { p with get := o }
  | .put => { p with put := o }
  | .post => { p with post := o }
  | .delete => { p with delete := o }
  | .patch => { p with patch := o }

/-- The fields of records that hold other parts of a document: how the field is read, and where the
record has it. The names are those of all fields, since a record may be written as an array. -/
inductive RecordField : {α γ : Type} → List String → (Json → Option α) → String →
    (Option Json → Option γ) → (α → γ) → (γ → α → α) → Prop
  | info : RecordField ApiSpec.keys ApiSpec.ofJson? "info" (orDefault? Info.empty Info.ofJson?)
      ApiSpec.info fun x spec => { spec with info := x }
  | paths : RecordField ApiSpec.keys ApiSpec.ofJson? "paths"
      (orDefault? [] (mapOf? PathItem.ofJson?)) ApiSpec.paths fun x spec => { spec with paths := x }
  | components : RecordField ApiSpec.keys ApiSpec.ofJson? "components"
      (optional? Components.ofJson?) ApiSpec.components fun x spec => { spec with components := x }
  | operation (method : HttpMethod) : RecordField PathItem.keys PathItem.ofJson? method.text
      (optional? Operation.ofJson?) (PathItem.operation? · method) (PathItem.withOperation method)
  | sharedParameters : RecordField PathItem.keys PathItem.ofJson? "parameters"
      (orDefault? [] (listOf? (RefOr.ofJson? Parameter.ofJson?))) PathItem.parameters
      fun x p => { p with parameters := x }
  | parameterSchema : RecordField Parameter.keys Parameter.ofJson? "schema"
      (optional? SchemaNode.ofJson?) Parameter.schema fun x p => { p with schema := x }
  | bodyContent : RecordField RequestBody.keys RequestBody.ofJson? "content"
      (optional? (mapOf? MediaType.ofJson?)) RequestBody.content fun x b => { b with content := x }
  | responseContent : RecordField Response.keys Response.ofJson? "content"
      (optional? (mapOf? MediaType.ofJson?)) Response.content fun x r => { r with content := x }
  | mediaSchema : RecordField MediaType.keys MediaType.ofJson? "schema"
      (optional? SchemaNode.ofJson?) MediaType.schema fun x m => { m with schema := x }
  | schemas : RecordField Components.keys Components.ofJson? "schemas"
      (orDefault? [] (mapOf? SchemaNode.ofJson?)) Components.schemas
      fun x c => { c with schemas := x }
  | parameters : RecordField Components.keys Components.ofJson? "parameters"
      (orDefault? [] (mapOf? (RefOr.ofJson? Parameter.ofJson?))) Components.parameters
      fun x c => { c with parameters := x }
  | requestBodies : RecordField Components.keys Components.ofJson? "requestBodies"
      (orDefault? [] (mapOf? (RefOr.ofJson? RequestBody.ofJson?))) Components.requestBodies
      fun x c => { c with requestBodies := x }
  | responses : RecordField Components.keys Components.ofJson? "responses"
      (orDefault? [] (mapOf? (RefOr.ofJson? Response.ofJson?))) Components.responses
      fun x c => { c with responses := x }

/-- The fields of objects that hold other parts of a document. Operations and schemas take keys of
any name, so these two are never written as arrays. What a schema enumerates is kept as it is and
holds no parts. -/
inductive ObjectField : {α γ : Type} → (Json → Option α) → String →
    (Option Json → Option γ) → (α → γ) → (γ → α → α) → Prop
  | record {α γ : Type} {names : List String} {read : Json → Option α} {key : String}
      {fieldRead : Option Json → Option γ} {get : α → γ} {set : γ → α → α}
      (h : RecordField names read key fieldRead get set) : ObjectField read key fieldRead get set
  | callParameters : ObjectField Operation.ofJson? "parameters"
      (orDefault? [] (listOf? (RefOr.ofJson? Parameter.ofJson?))) Operation.parameters
      fun x o => { o with parameters := x }
  | callBody : ObjectField Operation.ofJson? "requestBody"
      (optional? (RefOr.ofJson? RequestBody.ofJson?)) Operation.requestBody
      fun x o => { o with requestBody := x }
  | callResponses : ObjectField Operation.ofJson? "responses"
      (orDefault? [] (mapOf? (RefOr.ofJson? Response.ofJson?))) Operation.responses
      fun x o => { o with responses := x }
  | properties : ObjectField Schema.ofJson? "properties"
      (optional? (mapOf? SchemaNode.ofJson?)) Schema.properties
      fun x s => { s with properties := x }
  | items : ObjectField Schema.ofJson? "items" (fun field => some (field.bind Items.ofJson?))
      Schema.items fun x s => { s with items := x }
  | allOf : ObjectField Schema.ofJson? "allOf" (orDefault? [] (listOf? SchemaNode.ofJson?))
      Schema.allOf fun x s => { s with allOf := x }
  | oneOf : ObjectField Schema.ofJson? "oneOf" (orDefault? [] (listOf? SchemaNode.ofJson?))
      Schema.oneOf fun x s => { s with oneOf := x }
  | anyOf : ObjectField Schema.ofJson? "anyOf" (orDefault? [] (listOf? SchemaNode.ofJson?))
      Schema.anyOf fun x s => { s with anyOf := x }

inductive LenientField : {α γ : Type} → (Json → Option α) → String →
    (Option Json → γ) → (α → γ) → (γ → α → α) → Prop
  | infoTitle : LenientField Info.ofJson? "title" lenientText Info.title
      fun x i => { i with title := x }
  | infoVersion : LenientField Info.ofJson? "version" lenientText Info.version
      fun x i => { i with version := x }
  | infoDescription : LenientField Info.ofJson? "description" lenientText Info.description
      fun x i => { i with description := x }
  | operationId : LenientField Operation.ofJson? "operationId" lenientText Operation.operationId
      fun x o => { o with operationId := x }
  | summary : LenientField Operation.ofJson? "summary" lenientText Operation.summary
      fun x o => { o with summary := x }
  | operationDescription : LenientField Operation.ofJson? "description" lenientText
      Operation.description fun x o => { o with description := x }
  | tags : LenientField Operation.ofJson? "tags" lenientTexts Operation.tags
      fun x o => { o with tags := x }
  | routerController : LenientField Operation.ofJson? "x-swagger-router-controller" lenientText
      Operation.routerController fun x o => { o with routerController := x }
  | parameterName : LenientField Parameter.ofJson? "name"
      (fun field => (lenientText field).getD "") Parameter.name fun x p => { p with name := x }
  | parameterLocation : LenientField Parameter.ofJson? "in"
      (fun field => (lenientText field).getD "") Parameter.location
      fun x p => { p with location := x }
  | parameterDescription : LenientField Parameter.ofJson? "description" lenientText
      Parameter.description fun x p => { p with description := x }
  | parameterRequired : LenientField Parameter.ofJson? "required"
      (fun field => (lenientFlag field).getD false) Parameter.required
      fun x p => { p with required := x }
  | parameterType : LenientField Parameter.ofJson? "type" lenientText Parameter.type
      fun x p => { p with type := x }
  | bodyDescription : LenientField RequestBody.ofJson? "description" lenientText
      RequestBody.description fun x b => { b with description := x }
  | bodyRequired : LenientField RequestBody.ofJson? "required" lenientFlag RequestBody.required
      fun x b => { b with required := x }
  | responseDescription : LenientField Response.ofJson? "description" lenientText
      Response.description fun x r => { r with description := x }
  | schemaFormat : LenientField Schema.ofJson? "format" lenientText Schema.format
      fun x s => { s with format := x }
  | schemaTitle : LenientField Schema.ofJson? "title" lenientText Schema.title
      fun x s => { s with title := x }
  | schemaDescription : LenientField Schema.ofJson? "description" lenientText Schema.description
      fun x s => { s with description := x }

section Laws

variable {α γ : Type} {names : List String} {read : Json → Option α} {key : String}
  {fieldRead : Option Json → Option γ} {reading : Option Json → γ} {get : α → γ} {set : γ → α → α}

/-- An object has a field, and another value of the field changes nothing else. -/
structure IsApart (read : Json → Option α) (key : String) (fieldRead : Option Json → Option γ)
    (get : α → γ) (set : γ → α → α) : Prop where
  agree : Part.Agree get set
  key_ne : key ≠ "$ref"
  read_field {entries : List (String × Json)} {a : α} (h : read (.object entries) = some a) :
    fieldRead (entries.lookup key) = some (get a)
  read_insert {entries : List (String × Json)} {a : α} {w : Json} {x : γ}
    (h : read (.object entries) = some a) (hw : fieldRead (some w) = some x) :
    read (.object (insertEntry key w entries)) = some (set x a)

theorem RecordField.agree (h : RecordField names read key fieldRead get set) :
    Part.Agree get set := by
  cases h with
  | operation method => cases method <;> exact ⟨fun _ _ => rfl, fun _ _ _ => rfl, fun _ => rfl⟩
  | _ => exact ⟨fun _ _ => rfl, fun _ _ _ => rfl, fun _ => rfl⟩

theorem RecordField.exists_build (h : RecordField names read key fieldRead get set) :
    names.Nodup ∧ key ≠ "$ref" ∧ ∃ build : (String → Option Json) → Option α,
      (∀ v, read v = (v.fields? names).bind build) ∧
      ∀ {field a}, build field = some a → fieldRead (field key) = some (get a) ∧
        ∀ {field' x}, (∀ k, k ≠ key → field' k = field k) → fieldRead (field' key) = some x →
          build field' = some (set x a) := by
  cases h with
  | operation method =>
    refine ⟨by decide, by cases method <;> decide, _, fun _ => rfl, fun {field a} h => ?_⟩
    simp only [Option.bind_eq_bind, Option.bind_eq_some_iff, Option.some.injEq] at h
    obtain ⟨_, hget, _, hput, _, hpost, _, hdelete, _, hpatch, _, hparameters, rfl⟩ := h
    cases method
    all_goals
      refine ⟨by assumption, fun {field' x} hsame hx => ?_⟩
      simp only [HttpMethod.text] at hsame hx
      simp [hsame, hx, hget, hput, hpost, hdelete, hpatch, hparameters, PathItem.withOperation]
  | sharedParameters =>
    refine ⟨by decide, by decide, _, fun _ => rfl, fun {field a} h => ?_⟩
    simp only [Option.bind_eq_bind, Option.bind_eq_some_iff, Option.some.injEq] at h
    obtain ⟨_, hget, _, hput, _, hpost, _, hdelete, _, hpatch, _, hparameters, rfl⟩ := h
    refine ⟨hparameters, fun {field' x} hsame hx => ?_⟩
    simp [hsame, hx, hget, hput, hpost, hdelete, hpatch, parametersField?]
  | _ =>
    refine ⟨by decide, by decide, _, fun _ => rfl, fun {field a} h => ?_⟩
    simp only [Option.bind_eq_bind, Option.bind_eq_some_iff, Option.some.injEq, schemaField?,
      contentField?] at h ⊢
    grind

theorem RecordField.isApart (h : RecordField names read key fieldRead get set) :
    IsApart read key fieldRead get set := by
  obtain ⟨-, hkey, build, hread, hbuild⟩ := h.exists_build
  refine ⟨h.agree, hkey, fun {entries a} ha => ?_, fun {entries a w x} ha hw => ?_⟩
  · rw [hread] at ha
    exact (hbuild ha).1
  · rw [hread] at ha ⊢
    refine (hbuild ha).2 (fun k hk => ?_) ?_
    · rw [lookup_insertEntry, if_neg hk]
    · rw [lookup_insertEntry, if_pos rfl, hw]

end Laws

theorem Operation.extensions_insertEntry {key : String} (h : key ∈ keys) (w : Json)
    (entries : List (String × Json)) :
    ((insertEntry key w entries).filter fun entry => !keys.contains entry.1) =
      entries.filter fun entry => !keys.contains entry.1 := by
  induction entries with
  | nil => simp [insertEntry, h]
  | cons entry rest ih =>
    obtain ⟨k, v⟩ := entry
    rw [insertEntry]
    split
    · next hk =>
      subst hk
      simp [h]
    · simp only [List.filter_cons, ih]

theorem Operation.ofJson?_object_eq_some {entries : List (String × Json)} {o : Operation} :
    ofJson? (.object entries) = some o ↔
      orDefault? [] (listOf? (RefOr.ofJson? Parameter.ofJson?)) (entries.lookup "parameters") =
          some o.parameters ∧
        optional? (RefOr.ofJson? RequestBody.ofJson?) (entries.lookup "requestBody") =
          some o.requestBody ∧
        orDefault? [] (mapOf? (RefOr.ofJson? Response.ofJson?)) (entries.lookup "responses") =
          some o.responses ∧
        lenientText (entries.lookup "operationId") = o.operationId ∧
        lenientText (entries.lookup "summary") = o.summary ∧
        lenientText (entries.lookup "description") = o.description ∧
        lenientTexts (entries.lookup "tags") = o.tags ∧
        lenientText (entries.lookup "x-swagger-router-controller") = o.routerController ∧
        (entries.filter fun entry => !keys.contains entry.1) = o.extensions := by
  simp only [ofJson?, parametersField?, Option.bind_eq_bind, Option.bind_eq_some_iff,
    Option.some.injEq]
  constructor
  · rintro ⟨_, hparameters, _, hbody, _, hresponses, rfl⟩
    exact ⟨hparameters, hbody, hresponses, rfl, rfl, rfl, rfl, rfl, rfl⟩
  · rintro ⟨hparameters, hbody, hresponses, hid, hsummary, hdescription, htags, hrouter, hother⟩
    refine ⟨_, hparameters, _, hbody, _, hresponses, ?_⟩
    rw [hid, hsummary, hdescription, htags, hrouter, hother]

theorem SchemaNode.readEntries?_ofJson? (entries : List (String × Json)) :
    readEntries? ofJson? entries = some (ofEntries entries) := by
  induction entries with
  | nil => rfl
  | cons entry rest ih => simp [readEntries?, ofEntries, ih]

theorem SchemaNode.mapM_ofJson? (items : List Json) :
    items.mapM ofJson? = some (ofList items) := by
  induction items with
  | nil => rfl
  | cons v rest ih => simp [ofList, ih]

namespace Schema

/-- The values that a schema enumerates, nothing for `null`. -/
def enumerated? : Json → Option (Option (List EnumEntry))
  | .null => some none
  | .array values => some (some (EnumEntry.ofList values))
  | _ => none

def put? (key : String) (v : Json) (s : Schema) : Option Schema :=
  match key with
  | "type" => (SchemaType.ofJson? v).map fun x => { s with type := x }
  | "format" => some { s with format := lenientText (some v) }
  | "title" => some { s with title := lenientText (some v) }
  | "description" => some { s with description := lenientText (some v) }
  | "properties" => (optional? (mapOf? SchemaNode.ofJson?) (some v)).map fun x =>
      { s with properties := x }
  | "required" => (Required.ofJson? v).map fun x => { s with required := x }
  | "items" => some { s with items := Items.ofJson? v }
  | "enum" => (enumerated? v).map fun x => { s with enum := x }
  | "allOf" => (listOf? SchemaNode.ofJson? v).map fun x => { s with allOf := x }
  | "oneOf" => (listOf? SchemaNode.ofJson? v).map fun x => { s with oneOf := x }
  | "anyOf" => (listOf? SchemaNode.ofJson? v).map fun x => { s with anyOf := x }
  | key => some { s with extensions := (key, v) :: s.extensions }

theorem ofEntries?_cons (key : String) (v : Json) (rest : List (String × Json)) :
    ofEntries? ((key, v) :: rest) = (ofEntries? rest).bind (put? key v) := by
  rw [ofEntries?]
  refine congrArg _ (funext fun s => ?_)
  unfold put?
  split
  all_goals first
    | rfl
    | cases v <;> simp [optional?, mapOf?, listOf?, SchemaNode.readEntries?_ofJson?,
        SchemaNode.mapM_ofJson?, Items.ofJson?, enumerated?]

section Keywords

variable {γ : Type} {key : String} {fieldRead : Option Json → Option γ} {get : Schema → γ}
  {set : γ → Schema → Schema}

/-- A keyword is read on top of the entries behind it, and these do not see it. -/
structure IsKeyword (key : String) (fieldRead : Option Json → Option γ) (get : Schema → γ)
    (set : γ → Schema → Schema) : Prop where
  agree : Part.Agree get set
  key_ne : key ≠ "$ref"
  absent : fieldRead none = some (get empty)
  put?_self (v : Json) (s : Schema) :
    put? key v s = (fieldRead (some v)).map (set · s)
  put?_set {k : String} (hk : k ≠ key) (v : Json) (x : γ) (s : Schema) :
    put? k v (set x s) = (put? k v s).map (set x)

theorem IsKeyword.get_eq (h : IsKeyword key fieldRead get set) {k : String} (hk : k ≠ key)
    {v : Json} {s s' : Schema} (hs : put? k v s = some s') : get s' = get s := by
  have hset : some s' = some (set (get s) s') := by
    rw [← hs, ← h.agree.set_get s, h.put?_set hk, h.agree.set_get, hs, Option.map_some]
  rw [Option.some.inj hset, h.agree.get_set]

theorem IsKeyword.fieldRead_lookup (h : IsKeyword key fieldRead get set)
    {entries : List (String × Json)} {s : Schema} (hs : ofEntries? entries = some s) :
    fieldRead (entries.lookup key) = some (get s) := by
  induction entries generalizing s with
  | nil =>
    cases hs
    exact h.absent
  | cons entry rest ih =>
    obtain ⟨k, v⟩ := entry
    rw [ofEntries?_cons] at hs
    obtain ⟨s', hrest, hs⟩ := Option.bind_eq_some_iff.1 hs
    by_cases hk : k = key
    -- the first entry of a key is read last, and what those behind it say is overwritten
    · subst hk
      rw [h.put?_self] at hs
      obtain ⟨x, hx, rfl⟩ := Option.map_eq_some_iff.1 hs
      rw [List.lookup_cons_self, hx, h.agree.get_set]
    · rw [lookup_cons_of_ne (Ne.symm hk), ih hrest, h.get_eq hk hs]

theorem IsKeyword.ofEntries?_insertEntry (h : IsKeyword key fieldRead get set)
    {entries : List (String × Json)} {s : Schema} (hs : ofEntries? entries = some s) {w : Json}
    {x : γ} (hw : fieldRead (some w) = some x) :
    ofEntries? (insertEntry key w entries) = some (set x s) := by
  induction entries generalizing s with
  | nil =>
    cases hs
    rw [insertEntry, ofEntries?_cons, ofEntries?, Option.bind_some, h.put?_self, hw,
      Option.map_some]
  | cons entry rest ih =>
    obtain ⟨k, v⟩ := entry
    rw [ofEntries?_cons] at hs
    obtain ⟨s', hrest, hs⟩ := Option.bind_eq_some_iff.1 hs
    rw [insertEntry]
    split
    · next hk =>
      subst hk
      rw [h.put?_self] at hs
      obtain ⟨y, -, rfl⟩ := Option.map_eq_some_iff.1 hs
      rw [ofEntries?_cons, hrest, Option.bind_some, h.put?_self, hw, Option.map_some,
        h.agree.set_set]
    · next hk =>
      rw [ofEntries?_cons, ih hrest, Option.bind_some, h.put?_set hk, hs, Option.map_some]

theorem IsKeyword.isApart (h : IsKeyword key fieldRead get set) :
    IsApart ofJson? key fieldRead get set :=
  ⟨h.agree, h.key_ne, h.fieldRead_lookup, fun hs hw => h.ofEntries?_insertEntry hs hw⟩

end Keywords

end Schema

theorem ObjectField.isApart {α γ : Type} {read : Json → Option α} {key : String}
    {fieldRead : Option Json → Option γ} {get : α → γ} {set : γ → α → α}
    (h : ObjectField read key fieldRead get set) : IsApart read key fieldRead get set := by
  cases h with
  | record h => exact h.isApart
  | callParameters | callBody | callResponses =>
    refine ⟨⟨fun _ _ => rfl, fun _ _ _ => rfl, fun _ => rfl⟩, by decide, fun ho => ?_,
      fun ho hw => ?_⟩
    · rw [Operation.ofJson?_object_eq_some] at ho
      simp [ho]
    · rw [Operation.ofJson?_object_eq_some] at ho ⊢
      rw [Operation.extensions_insertEntry (by decide)]
      simp only [lookup_insertEntry, String.reduceEq, reduceIte, ho, hw, and_self]
  | properties | items | allOf | oneOf | anyOf =>
    refine Schema.IsKeyword.isApart ⟨⟨fun _ _ => rfl, fun _ _ _ => rfl, fun s => ?_⟩, by decide,
      rfl, fun v s => rfl, fun {k} hk v x s => ?_⟩
    · cases s
      rfl
    unfold Schema.put?
    split
    all_goals first
      | contradiction
      | rfl
      | simp [Function.comp_def]

theorem LenientField.isApart {α γ : Type} {read : Json → Option α} {key : String}
    {reading : Option Json → γ} {get : α → γ} {set : γ → α → α}
    (h : LenientField read key reading get set) :
    IsApart read key (fun field => some (reading field)) get set := by
  cases h with
  | operationId | summary | operationDescription | tags | routerController =>
    refine ⟨⟨fun _ _ => rfl, fun _ _ _ => rfl, fun _ => rfl⟩, by decide, fun ho => ?_,
      fun ho hw => ?_⟩
    · rw [Operation.ofJson?_object_eq_some] at ho
      simp only [ho]
    · rw [Operation.ofJson?_object_eq_some] at ho ⊢
      rw [Operation.extensions_insertEntry (by decide)]
      simp only [lookup_insertEntry, String.reduceEq, reduceIte, ho, Option.some.inj hw, and_self]
  | schemaFormat | schemaTitle | schemaDescription =>
    refine Schema.IsKeyword.isApart ⟨⟨fun _ _ => rfl, fun _ _ _ => rfl, fun s => ?_⟩, by decide,
      rfl, fun v s => rfl, fun {k} hk v x s => ?_⟩
    · cases s
      rfl
    unfold Schema.put?
    split
    all_goals first
      | contradiction
      | rfl
      | simp [Function.comp_def]
  | _ =>
    refine ⟨⟨fun _ _ => rfl, fun _ _ _ => rfl, fun _ => rfl⟩, by decide, fun {entries a} ha => ?_,
      fun {entries a w x} ha hw => ?_⟩
    all_goals
      simp only [Info.ofJson?, Parameter.ofJson?, RequestBody.ofJson?, Response.ofJson?, fields?,
        Option.bind_eq_bind, Option.bind_eq_some_iff, Option.some.injEq, lookup_insertEntry]
        at ha ⊢
      grind

end ApiClient
