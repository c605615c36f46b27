import ApiClient.Proofs.Keys
import ApiClient.Schema.Printer

namespace ApiClient

theorem Json.lookup_optionalEntry {key k : String} (h : key ≠ k) (value : Option Json)
    (rest : List (String × Json)) :
    (optionalEntry k value ++ rest).lookup key = rest.lookup key := by
  cases value with
  | none => rfl
  | some v => exact lookup_cons_of_ne h v rest

theorem lookup_memberEntry {key k : String} (h : key ≠ k) (members : List Json)
    (rest : List (String × Json)) :
    (memberEntry k members ++ rest).lookup key = rest.lookup key := by
  cases members with
  | nil => rfl
  | cons v more => exact lookup_cons_of_ne h _ rest

def Schema.keywords : List String :=
  ["type", "format", "title", "description", "properties", "required", "items", "enum", "allOf",
    "oneOf", "anyOf"]

def Items.ofJson? : Json → Option Items
  | .null => none
  | .array members => some (.tuple (SchemaNode.ofList members))
  | v => some (.single (SchemaNode.ofJson v))

namespace Json

theorem allStrings?_strings (l : List String) : allStrings? (l.map .string) = some l := by
  induction l with
  | nil => rfl
  | cons s rest ih => rw [List.map_cons, allStrings?, ih, Option.map_some]

end Json

theorem SchemaType.ofJson?_toJson (t : SchemaType) : ofJson? t.toJson = some (some t) := by
  cases t with
  | single name => rfl
  | multiple names => rw [toJson, Json.strings, ofJson?, Json.allStrings?_strings, Option.map_some]

theorem Required.ofJson?_toJson (r : Required) : ofJson? r.toJson = some (some r) := by
  cases r with
  | flag on => rfl
  | listed keys => rw [toJson, Json.strings, ofJson?, Json.allStrings?_strings, Option.map_some]

theorem EnumEntry.map_value_ofList (values : List Json) :
    (ofList values).map EnumEntry.value = values := by
  induction values with
  | nil => rfl
  | cons v rest ih => cases v <;> simp [ofList, value, ih]

/-- A schema whose parts are read back as they are written. -/
structure Schema.IsSettled (s : Schema) : Prop where
  properties : ∀ ps, s.properties = some ps →
    mapOfEntries (SchemaNode.ofEntries (SchemaNode.toEntries ps)) = ps
  items : ∀ i, s.items = some i → Items.ofJson? i.toJson = some i
  enum : ∀ es, s.enum = some es → EnumEntry.ofList (es.map EnumEntry.value) = es
  allOf : SchemaNode.ofList (SchemaNode.toJsons s.allOf) = s.allOf
  oneOf : SchemaNode.ofList (SchemaNode.toJsons s.oneOf) = s.oneOf
  anyOf : SchemaNode.ofList (SchemaNode.toJsons s.anyOf) = s.anyOf
  extensions : ∀ entry ∈ s.extensions, entry.1 ∉ keywords

namespace Schema

section Keywords

attribute [local simp] ofEntries?

variable {rest : List (String × Json)} {s : Schema}

/-- A keyword is read on top of the entries behind it, or left out and stays at what it is. -/
theorem ofEntries?_keyword {α : Type} (key : String) (write : α → Json) (value : Option α)
    {f : Option α → Schema} (h : ofEntries? rest = some (f none))
    (hread : ∀ a, value = some a → ofEntries? ((key, write a) :: rest) = some (f (some a))) :
    ofEntries? (Json.optionalEntry key (value.map write) ++ rest) = some (f value) := by
  cases value with
  | none => exact h
  | some a => exact hread a rfl

theorem ofEntries?_members (key : String) (members : List SchemaNode)
    {f : List SchemaNode → Schema} (h : ofEntries? rest = some (f []))
    (hmembers : SchemaNode.ofList (SchemaNode.toJsons members) = members)
    (hread : ∀ values, ofEntries? ((key, .array values) :: rest) =
      some (f (SchemaNode.ofList values))) :
    ofEntries? (memberEntry key (SchemaNode.toJsons members) ++ rest) = some (f members) := by
  cases members with
  | nil => exact h
  | cons node more => exact (hread _).trans (by rw [hmembers])

theorem ofEntries?_items (h : ofEntries? rest = some s) (v : Json) :
    ofEntries? (("items", v) :: rest) = some { s with items := Items.ofJson? v } := by
  rw [ofEntries?, h]
  cases v <;> rfl

theorem ofEntries?_extensions {entries : List (String × Json)}
    (h : ∀ entry ∈ entries, entry.1 ∉ keywords) :
    ofEntries? entries = some { empty with extensions := entries } := by
  induction entries with
  | nil => rfl
  | cons entry rest ih =>
    obtain ⟨key, v⟩ := entry
    obtain ⟨hkey, hrest⟩ := List.forall_mem_cons.1 h
    simp only [keywords, List.mem_cons, List.not_mem_nil, or_false, not_or] at hkey
    rw [ofEntries?, ih hrest, Option.bind_some]
    split <;> simp_all

theorem toEntries_eq (s : Schema) : s.toEntries =
    Json.optionalEntry "type" (s.type.map SchemaType.toJson) ++
    (Json.optionalEntry "format" (s.format.map .string) ++
    (Json.optionalEntry "title" (s.title.map .string) ++
    (Json.optionalEntry "description" (s.description.map .string) ++
    (Json.optionalEntry "properties"
      (s.properties.map fun ps => .object (SchemaNode.toEntries ps)) ++
    (Json.optionalEntry "required" (s.required.map Required.toJson) ++
    (Json.optionalEntry "items" (s.items.map Items.toJson) ++
    (Json.optionalEntry "enum" (s.enum.map fun es => .array (es.map EnumEntry.value)) ++
    (memberEntry "allOf" (SchemaNode.toJsons s.allOf) ++
    (memberEntry "oneOf" (SchemaNode.toJsons s.oneOf) ++
    (memberEntry "anyOf" (SchemaNode.toJsons s.anyOf) ++ s.extensions)))))))))) := by
  obtain ⟨type, format, title, description, properties, required, items, enum, allOf, oneOf, anyOf,
    extensions⟩ := s
  cases properties <;> cases items <;>
    simp [toEntries.eq_def, Json.optionalEntry, List.append_assoc]

theorem ofEntries?_toEntries (hs : s.IsSettled) : ofEntries? s.toEntries = some s := by
  rw [toEntries_eq]
  obtain ⟨type, format, title, description, properties, required, items, enum, allOf, oneOf, anyOf,
    extensions⟩ := s
  have hextensions : ofEntries? extensions =
      some ⟨none, none, none, none, none, none, none, none, [], [], [], extensions⟩ :=
    ofEntries?_extensions hs.extensions
  have hanyOf := ofEntries?_members "anyOf" anyOf
    (f := fun l => ⟨none, none, none, none, none, none, none, none, [], [], l, extensions⟩)
    hextensions hs.anyOf fun values => by simp [hextensions]
  have honeOf := ofEntries?_members "oneOf" oneOf
    (f := fun l => ⟨none, none, none, none, none, none, none, none, [], l, anyOf, extensions⟩)
    hanyOf hs.oneOf fun values => by simp [hanyOf]
  have hallOf := ofEntries?_members "allOf" allOf
    (f := fun l => ⟨none, none, none, none, none, none, none, none, l, oneOf, anyOf, extensions⟩)
    honeOf hs.allOf fun values => by simp [honeOf]
  have henum := ofEntries?_keyword "enum" (fun es => .array (es.map EnumEntry.value)) enum
    (f := fun o => ⟨none, none, none, none, none, none, none, o, allOf, oneOf, anyOf, extensions⟩)
    hallOf fun es hes => by simp [hallOf, hs.enum es hes]
  have hitems := ofEntries?_keyword "items" Items.toJson items
    (f := fun o => ⟨none, none, none, none, none, none, o, enum, allOf, oneOf, anyOf, extensions⟩)
    henum fun i hi => by rw [ofEntries?_items henum, hs.items i hi]
  have hrequired := ofEntries?_keyword "required" Required.toJson required
    (f := fun o => ⟨none, none, none, none, none, o, items, enum, allOf, oneOf, anyOf, extensions⟩)
    hitems fun r _ => by simp [hitems, Required.ofJson?_toJson]
  have hproperties := ofEntries?_keyword "properties"
    (fun ps => .object (SchemaNode.toEntries ps)) properties
    (f := fun o => ⟨none, none, none, none, o, required, items, enum, allOf, oneOf, anyOf,
      extensions⟩)
    hrequired fun ps hps => by simp [hrequired, hs.properties ps hps]
  have hdescription := ofEntries?_keyword "description" .string description
    (f := fun o => ⟨none, none, none, o, properties, required, items, enum, allOf, oneOf, anyOf,
      extensions⟩)
    hproperties fun text _ => by simp [hproperties, Json.scalarText?]
  have htitle := ofEntries?_keyword "title" .string title
    (f := fun o => ⟨none, none, o, description, properties, required, items, enum, allOf, oneOf,
      anyOf, extensions⟩)
    hdescription fun text _ => by simp [hdescription, Json.scalarText?]
  have hformat := ofEntries?_keyword "format" .string format
    (f := fun o => ⟨none, o, title, description, properties, required, items, enum, allOf, oneOf,
      anyOf, extensions⟩)
    htitle fun text _ => by simp [htitle, Json.scalarText?]
  exact ofEntries?_keyword "type" SchemaType.toJson type
    (f := fun o => ⟨o, format, title, description, properties, required, items, enum, allOf,
      oneOf, anyOf, extensions⟩)
    hformat fun t _ => by simp [hformat, SchemaType.ofJson?_toJson]

end Keywords

end Schema

/-- Induction on a value, with a hypothesis for each of its items or entries. -/
@[elab_as_elim]
theorem Json.induction {motive : Json → Prop} (null : motive .null) (bool : ∀ b, motive (.bool b))
    (number : ∀ n, motive (.number n)) (string : ∀ s, motive (.string s))
    (array : ∀ items, (∀ v ∈ items, motive v) → motive (.array items))
    (object : ∀ entries, (∀ entry ∈ entries, motive entry.2) → motive (.object entries)) :
    ∀ v, motive v
  | .null => null
  | .bool b => bool b
  | .number n => number n
  | .string s => string s
  | .array items => array items fun v _ => Json.induction null bool number string array object v
  | .object entries => object entries fun (_, v) _ =>
    Json.induction null bool number string array object v
termination_by v => sizeOf v
decreasing_by
  · have hlt := List.sizeOf_lt_of_mem ‹_ ∈ items›
    simp only [Json.array.sizeOf_spec]
    omega
  · have hlt := List.sizeOf_lt_of_mem ‹_ ∈ entries›
    simp only [Prod.mk.sizeOf_spec] at hlt
    simp only [Json.object.sizeOf_spec]
    omega

structure Json.IsRestored (v : Json) : Prop where
  node : SchemaNode.ofJson (SchemaNode.ofJson v).toJson = SchemaNode.ofJson v
  members : ∀ items, v = .array items →
    SchemaNode.ofList (SchemaNode.toJsons (SchemaNode.ofList items)) = SchemaNode.ofList items
  properties : ∀ entries, v = .object entries →
    ∀ p ∈ SchemaNode.ofEntries entries, SchemaNode.ofJson p.2.toJson = p.2

namespace SchemaNode

theorem ofEntries_toEntries {ps : List (String × SchemaNode)}
    (h : ∀ p ∈ ps, ofJson p.2.toJson = p.2) : ofEntries (toEntries ps) = ps := by
  induction ps with
  | nil => rfl
  | cons p ps ih =>
    obtain ⟨hp, hps⟩ := List.forall_mem_cons.1 h
    rw [toEntries, ofEntries, hp, ih hps]

theorem ofList_toJsons_ofList {items : List Json} (h : ∀ v ∈ items, v.IsRestored) :
    ofList (toJsons (ofList items)) = ofList items := by
  induction items with
  | nil => rfl
  | cons v items ih =>
    obtain ⟨hv, hitems⟩ := List.forall_mem_cons.1 h
    rw [ofList, toJsons, ofList, hv.node, ih hitems]

theorem restored_of_mem_ofEntries {entries : List (String × Json)}
    (h : ∀ entry ∈ entries, entry.2.IsRestored) {p : String × SchemaNode}
    (hp : p ∈ ofEntries entries) : ofJson p.2.toJson = p.2 := by
  induction entries with
  | nil => simp [ofEntries] at hp
  | cons entry entries ih =>
    obtain ⟨hentry, hentries⟩ := List.forall_mem_cons.1 h
    obtain rfl | hp := List.mem_cons.1 hp
    · exact hentry.node
    · exact ih hentries hp

theorem toJson_ofJson_object (entries : List (String × Json)) :
    ∃ written, (ofJson (.object entries)).toJson = .object written := by
  rw [ofJson]
  split
  · exact ⟨_, rfl⟩
  · split <;> exact ⟨_, rfl⟩

end SchemaNode

theorem Items.ofJson?_toJson {v : Json} (hv : v.IsRestored) {i : Items}
    (h : ofJson? v = some i) : ofJson? i.toJson = some i := by
  cases v with
  | null => cases h
  | array members =>
    cases h
    rw [toJson, ofJson?, hv.members members rfl]
  | object entries =>
    cases h
    obtain ⟨written, hwritten⟩ := SchemaNode.toJson_ofJson_object entries
    have hnode := hv.node
    rw [hwritten] at hnode
    rw [toJson, hwritten]
    exact congrArg (fun node => some (single node)) hnode
  | _ => cases h; rfl

namespace Schema

/-- A schema that is read is settled if the values of its keywords are restored, and keeps the
entries under all other keys. -/
theorem isSettled_of_ofEntries? {entries : List (String × Json)} {s : Schema}
    (h : ofEntries? entries = some s) (hall : ∀ entry ∈ entries, entry.2.IsRestored) :
    s.IsSettled ∧ s.extensions = entries.filter fun entry => !keywords.contains entry.1 := by
  induction entries generalizing s with
  | nil =>
    cases h
    exact ⟨⟨by simp [empty], by simp [empty], by simp [empty], rfl, rfl, rfl, by simp [empty]⟩, rfl⟩
  | cons entry rest ih =>
    obtain ⟨key, v⟩ := entry
    obtain ⟨hv, hrest⟩ := List.forall_mem_cons.1 hall
    rw [ofEntries?] at h
    obtain ⟨s₀, hs₀, h⟩ := Option.bind_eq_some_iff.1 h
    obtain ⟨hsettled, hextensions⟩ := ih hs₀ hrest
    -- a keyword changes its own field, and any other key is an extension
    split at h
    case h_1 | h_6 =>
      obtain ⟨t, -, rfl⟩ := Option.map_eq_some_iff.1 h
      exact ⟨{ hsettled with }, hextensions⟩
    case h_2 | h_3 | h_4 =>
      cases h
      exact ⟨{ hsettled with }, hextensions⟩
    case h_5 =>
      cases v with
      | null =>
        cases h
        exact ⟨{ hsettled with properties := nofun }, hextensions⟩
      | object entries =>
        cases h
        refine ⟨{ hsettled with properties := fun ps hps => ?_ }, hextensions⟩
        cases hps
        rw [SchemaNode.ofEntries_toEntries fun p hp =>
            hv.properties entries rfl p (mem_of_mem_mapOfEntries hp),
          mapOfEntries_eq_self (nodup_keys_mapOfEntries _)]
      | _ => cases h
    case h_7 =>
      have hitems : s = { s₀ with items := Items.ofJson? v } := by
        cases v <;> exact (Option.some.inj h).symm
      rw [hitems]
      exact ⟨{ hsettled with items := fun i hi => Items.ofJson?_toJson hv hi }, hextensions⟩
    case h_8 =>
      cases v with
      | null =>
        cases h
        exact ⟨{ hsettled with enum := nofun }, hextensions⟩
      | array values =>
        cases h
        refine ⟨{ hsettled with enum := fun es hes => ?_ }, hextensions⟩
        cases hes
        rw [EnumEntry.map_value_ofList]
      | _ => cases h
    case h_9 =>
      cases v with
      | array members =>
        cases h
        exact ⟨{ hsettled with allOf := hv.members members rfl }, hextensions⟩
      | _ => cases h
    case h_10 =>
      cases v with
      | array members =>
        cases h
        exact ⟨{ hsettled with oneOf := hv.members members rfl }, hextensions⟩
      | _ => cases h
    case h_11 =>
      cases v with
      | array members =>
        cases h
        exact ⟨{ hsettled with anyOf := hv.members members rfl }, hextensions⟩
      | _ => cases h
    case h_12 =>
      cases h
      have hkey : key ∉ keywords := by simp_all [keywords]
      have hkeys : ∀ entry ∈ (key, v) :: s₀.extensions, entry.1 ∉ keywords :=
        List.forall_mem_cons.2 ⟨hkey, hsettled.extensions⟩
      refine ⟨{ hsettled with extensions := hkeys }, ?_⟩
      rw [List.filter_cons_of_pos (by simpa using hkey), ← hextensions]

theorem lookup_toEntries {key : String} (hkey : key ∉ keywords) (s : Schema) :
    s.toEntries.lookup key = s.extensions.lookup key := by
  simp only [keywords, List.mem_cons, List.not_mem_nil, or_false, not_or] at hkey
  simp only [toEntries_eq, Json.lookup_optionalEntry, lookup_memberEntry, hkey, not_false_eq_true,
    ne_eq]

end Schema

/-- An object is a reference, or a schema that is no reference, or kept as it is. -/
theorem SchemaNode.ofJson_object_cases (entries : List (String × Json)) :
    (∃ path, entries.lookup "$ref" = some (.string path) ∧
      ofJson (.object entries) = .reference path) ∨
    (∃ s, (∀ path, entries.lookup "$ref" ≠ some (.string path)) ∧
      Schema.ofEntries? entries = some s ∧ ofJson (.object entries) = .schema s) ∨
    ofJson (.object entries) = .other (.object entries) := by
  rw [ofJson]
  split
  · next path hpath => exact .inl ⟨path, hpath, rfl⟩
  · next hpath =>
    split
    · next s hs => exact .inr (.inl ⟨s, hpath, hs, rfl⟩)
    · exact .inr (.inr rfl)

theorem SchemaNode.ofJson_toJson_reference (path : String) :
    ofJson (reference path).toJson = reference path := by
  rw [toJson, ofJson]
  rfl

theorem SchemaNode.ofJson_toJson_schema {s : Schema} (hs : s.IsSettled)
    (href : ∀ path, s.extensions.lookup "$ref" ≠ some (.string path)) :
    ofJson (schema s).toJson = schema s := by
  rw [toJson, ofJson, Schema.lookup_toEntries (by decide)]
  split
  · next path hpath => exact absurd hpath (href path)
  · rw [Schema.ofEntries?_toEntries hs]

theorem Json.isRestored (v : Json) : v.IsRestored := by
  induction v using Json.induction with
  | array items ih =>
    refine ⟨rfl, fun items' h => ?_, nofun⟩
    cases h
    exact SchemaNode.ofList_toJsons_ofList ih
  | object entries ih =>
    refine ⟨?_, nofun, fun entries' h p hp => ?_⟩
    · obtain ⟨path, -, hnode⟩ | ⟨s, href, hs, hnode⟩ | hnode :=
        SchemaNode.ofJson_object_cases entries
      · rw [hnode, SchemaNode.ofJson_toJson_reference]
      · obtain ⟨hsettled, hextensions⟩ := Schema.isSettled_of_ofEntries? hs ih
        rw [hnode]
        apply SchemaNode.ofJson_toJson_schema hsettled
        rwa [hextensions, lookup_filter_notContains (by decide)]
      · rw [hnode, SchemaNode.toJson, hnode]
    · cases h
      exact SchemaNode.restored_of_mem_ofEntries ih hp
  | _ => exact ⟨rfl, nofun, nofun⟩

theorem SchemaNode.isSettled_of_ofJson {v : Json} {s : Schema} (h : ofJson v = schema s) :
    s.IsSettled := by
  cases v with
  | object entries =>
    obtain ⟨path, -, hnode⟩ | ⟨s', -, hs, hnode⟩ | hnode := ofJson_object_cases entries
    · rw [hnode] at h
      cases h
    · rw [hnode] at h
      cases h
      exact (Schema.isSettled_of_ofEntries? hs fun entry _ => entry.2.isRestored).1
    · rw [hnode] at h
      cases h
  | _ => cases h

theorem Schema.IsSettled.nodup_keys {s : Schema} (hs : s.IsSettled)
    {ps : List (String × SchemaNode)} (hps : s.properties = some ps) :
    (ps.map Prod.fst).Nodup := by
  rw [← hs.properties ps hps]
  exact nodup_keys_mapOfEntries _

end ApiClient
