import ApiClient.Proofs.DocumentRoundTrip
import ApiClient.Proofs.SchemaReferences

namespace ApiClient

section Trees

namespace Json

theorem mem_references_array {items : List Json} {path : String} :
    path ∈ (array items).references ↔ ∃ v ∈ items, path ∈ v.references := by
  rw [references]
  induction items with
  | nil => simp [itemReferences]
  | cons v items ih => rw [itemReferences, List.mem_append, ih, List.exists_mem_cons_iff]

theorem mem_references_object {entries : List (String × Json)} {path : String} :
    path ∈ (object entries).references ↔ ∃ entry ∈ entries,
      entry = ("$ref", string path) ∨ path ∈ entry.2.references := by
  rw [references]
  induction entries with
  | nil => simp [entryReferences]
  | cons entry entries ih =>
    obtain ⟨key, v⟩ := entry
    have hown : path ∈ (if key = "$ref" then v.string?.toList else []) ↔
        (key, v) = ("$ref", string path) := by
      by_cases hkey : key = "$ref"
      · cases v <;> simp [hkey, string?, eq_comm]
      · simp [hkey]
    rw [entryReferences, List.mem_append, List.mem_append, hown, ih, List.exists_mem_cons_iff]

theorem references_subset_of_lookup {entries : List (String × Json)} {key : String} {v : Json}
    (h : entries.lookup key = some v) : v.references ⊆ (object entries).references := by
  intro path hpath
  exact mem_references_object.2 ⟨_, mem_of_lookup h, .inr hpath⟩

theorem mem_references_of_reference? {v : Json} {path : String} (h : v.reference? = some path) :
    path ∈ v.references := by
  obtain ⟨own, hown, hpath⟩ := Option.bind_eq_some_iff.1 h
  cases v with
  | object entries =>
    have hstring : own = string path := by
      cases own with
      | string s => exact congrArg string (Option.some.inj hpath)
      | _ => cases hpath
    rw [hstring] at hown
    exact mem_references_object.2 ⟨_, mem_of_lookup hown, .inl rfl⟩
  | _ => cases hown

theorem references_subset_of_descend? {keys : List String} {v target : Json}
    (h : v.descend? keys = some target) : target.references ⊆ v.references := by
  induction keys generalizing v with
  | nil =>
    cases h
    exact List.Subset.refl _
  | cons key keys ih =>
    obtain ⟨child, hchild, h⟩ := Option.bind_eq_some_iff.1 h
    apply List.Subset.trans (ih h)
    cases v with
    | object entries => exact references_subset_of_lookup hchild
    | array items =>
      obtain ⟨i, -, hi⟩ := Option.bind_eq_some_iff.1 hchild
      intro path hpath
      exact mem_references_array.2 ⟨child, List.mem_of_getElem? hi, hpath⟩
    | _ => cases hchild

end Json

variable {d : Document}

namespace Document

theorem references_withTypeOf_subset {target resolved : Json} :
    (withTypeOf target resolved).references ⊆ target.references ++ resolved.references := by
  intro path hpath
  unfold withTypeOf at hpath
  split at hpath
  · next entries type htype =>
    rw [List.mem_append]
    obtain ⟨entry, hentry, hpath⟩ := Json.mem_references_object.1 hpath
    obtain rfl | hentry := mem_insertEntry hentry
    · cases target with
      | object fields =>
        refine .inl (Json.references_subset_of_lookup htype ?_)
        simpa using hpath
      | _ => cases htype
    · exact .inr (Json.mem_references_object.2 ⟨entry, hentry, hpath⟩)
  · exact List.mem_append_right _ hpath

theorem mem_without {reference other : String} {pending : List String} :
    other ∈ without reference pending ↔ other ∈ pending ∧ other ≠ reference := by
  rw [without, List.mem_filter, decide_eq_true_iff]

theorem isSome_pointerKeys? (reference : String) :
    (Json.pointerKeys? reference).isSome = Text.startsWith "#/" reference := by
  rw [Json.pointerKeys?, Option.isSome_map, List.isSome_isPrefixOf?_eq_isPrefixOf]
  rfl

theorem lookup_external {reference : String} (h : Text.startsWith "#/" reference = false) :
    d.lookup reference = .ok none := by
  have hkeys : Json.pointerKeys? reference = none := by
    rw [← Option.isNone_iff_eq_none, ← Option.isSome_eq_false_iff, isSome_pointerKeys?, h]
  rw [lookup, hkeys]

theorem lookup_internal {reference : String} (h : Text.startsWith "#/" reference = true) :
    d.lookup reference = .error (.unresolved reference) ∨
      ∃ target, d.lookup reference = .ok (some target) := by
  rw [← isSome_pointerKeys?] at h
  obtain ⟨keys, hkeys⟩ := Option.isSome_iff_exists.1 h
  rw [lookup, hkeys]
  dsimp only
  cases d.tree.descend? keys with
  | none => exact .inl rfl
  | some target => exact .inr ⟨target, rfl⟩

theorem resolve_of_lookup {reference : String} {target : Json}
    (h : d.lookup reference = .ok (some target)) (hlast : target.reference? = none) :
    d.resolve reference = .ok (some target) := by
  rw [resolve, follow, if_pos List.mem_cons_self, h]
  simp only [bind, Except.bind, hlast]
  rfl

theorem resolveSchema_of_lookup {reference : String} {target : Json} {node : SchemaNode}
    (h : d.lookup reference = .ok (some target)) (hlast : target.reference? = none)
    (hnode : SchemaNode.ofJson target = node) :
    d.resolveSchema (.reference reference) = .ok node := by
  rw [resolveSchema, resolve_of_lookup h hlast, ← hnode]
  rfl

theorem references_subset_of_lookup {reference : String} {target : Json}
    (h : d.lookup reference = .ok (some target)) : target.references ⊆ d.tree.references := by
  rw [lookup] at h
  split at h
  · cases h
  · next keys _ =>
    split at h
    · next node hnode =>
      cases h
      exact Json.references_subset_of_descend? hnode
    · cases h

theorem references_subset_of_follow {pending : List String} {reference : String} {v : Json}
    (h : d.follow pending reference = .ok (some v)) : v.references ⊆ d.tree.references := by
  fun_induction Document.follow d pending reference generalizing v with
  | case1 pending path hpath ih =>
    obtain ⟨found, hfound, h⟩ := bind_eq_ok.1 h
    cases found with
    | none => cases h
    | some target =>
      have htarget := references_subset_of_lookup hfound
      dsimp only at h
      split at h
      · cases h
        exact htarget
      · next next _ =>
        obtain ⟨found, hfound, h⟩ := bind_eq_ok.1 h
        cases found with
        | none =>
          cases h
          exact htarget
        | some resolved =>
          cases h
          exact List.Subset.trans references_withTypeOf_subset
            (List.append_subset.2 ⟨htarget, ih next hfound⟩)
  | case2 pending path hpath => cases h

end Document

end Trees

section Schemas

namespace SchemaNode

variable {path : String}

theorem mem_memberReferences {members : List SchemaNode} :
    path ∈ memberReferences members ↔ ∃ m ∈ members, path ∈ m.references := by
  induction members with
  | nil => simp [memberReferences]
  | cons m members ih => rw [memberReferences, List.mem_append, ih, List.exists_mem_cons_iff]

theorem mem_propertyReferences {ps : List (String × SchemaNode)} :
    path ∈ propertyReferences ps ↔ ∃ p ∈ ps, path ∈ p.2.references := by
  induction ps with
  | nil => simp [propertyReferences]
  | cons p ps ih => rw [propertyReferences, List.mem_append, ih, List.exists_mem_cons_iff]

theorem mem_propertyReferences_of_map {ps : List (String × SchemaNode)}
    (h : path ∈ propertyReferences (mapOfEntries ps)) : path ∈ propertyReferences ps := by
  obtain ⟨p, hp, hpath⟩ := mem_propertyReferences.1 h
  exact mem_propertyReferences.2 ⟨p, mem_of_mem_mapOfEntries hp, hpath⟩

end SchemaNode

theorem Schema.mem_references {s : Schema} {path : String} :
    path ∈ s.references ↔
      (∃ ps, s.properties = some ps ∧ path ∈ SchemaNode.propertyReferences ps) ∨
      (∃ i, s.items = some i ∧ path ∈ i.references) ∨
      path ∈ SchemaNode.memberReferences s.allOf ∨ path ∈ SchemaNode.memberReferences s.oneOf ∨
      path ∈ SchemaNode.memberReferences s.anyOf := by
  obtain ⟨type, format, title, description, properties, required, items, enum, allOf, oneOf, anyOf,
    extensions⟩ := s
  cases properties <;> cases items <;> simp [references]

theorem Schema.references_allOf_subset {s : Schema} {m : SchemaNode} (hm : m ∈ s.allOf) :
    m.references ⊆ (SchemaNode.schema s).references := by
  intro path hpath
  rw [SchemaNode.references, mem_references]
  exact .inr (.inr (.inl (SchemaNode.mem_memberReferences.2 ⟨m, hm, hpath⟩)))

/-- A reference in the value of a keyword, read in any of the ways in which keywords are. -/
def Json.HoldsRead (v : Json) (path : String) : Prop :=
  (∃ entries, v = .object entries ∧
    path ∈ SchemaNode.propertyReferences (SchemaNode.ofEntries entries)) ∨
  (∃ members, v = .array members ∧ path ∈ SchemaNode.memberReferences (SchemaNode.ofList members)) ∨
  path ∈ (SchemaNode.ofJson v).references

theorem Json.holdsRead_of_items {v : Json} {i : Items} {path : String}
    (h : Items.ofJson? v = some i) (hpath : path ∈ i.references) : v.HoldsRead path := by
  cases v with
  | null => cases h
  | array members =>
    cases h
    exact .inr (.inl ⟨members, rfl, hpath⟩)
  | _ =>
    cases h
    exact .inr (.inr hpath)

theorem Schema.mem_references_cons {key : String} {v : Json} {rest : List (String × Json)}
    {s : Schema} {path : String} (h : ofEntries? ((key, v) :: rest) = some s)
    (hpath : path ∈ s.references) :
    v.HoldsRead path ∨ ∃ s₀, ofEntries? rest = some s₀ ∧ path ∈ s₀.references := by
  rw [ofEntries?] at h
  obtain ⟨s₀, hs₀, h⟩ := Option.bind_eq_some_iff.1 h
  rw [or_iff_not_imp_left]
  intro hnot
  refine ⟨s₀, hs₀, ?_⟩
  have hlist : ∀ members, v = .array members →
      path ∉ SchemaNode.memberReferences (SchemaNode.ofList members) :=
    fun members hv hmem => hnot (.inr (.inl ⟨members, hv, hmem⟩))
  rw [mem_references] at hpath ⊢
  split at h
  case h_1 | h_6 =>
    obtain ⟨_, -, rfl⟩ := Option.map_eq_some_iff.1 h
    exact hpath
  case h_2 | h_3 | h_4 | h_12 =>
    cases h
    exact hpath
  case h_5 =>
    cases v with
    | null =>
      cases h
      exact .inr (by simpa using hpath)
    | object entries =>
      cases h
      obtain ⟨ps, hps, hmem⟩ | hpath := hpath
      · cases hps
        exact absurd (.inl ⟨entries, rfl, SchemaNode.mem_propertyReferences_of_map hmem⟩) hnot
      · exact .inr hpath
    | _ => cases h
  case h_7 =>
    have hitems : s = { s₀ with items := Items.ofJson? v } := by
      cases v <;> exact (Option.some.inj h).symm
    rw [hitems] at hpath
    obtain hpath | ⟨i, hi, hmem⟩ | hpath := hpath
    · exact .inl hpath
    · exact absurd (Json.holdsRead_of_items hi hmem) hnot
    · exact .inr (.inr hpath)
  case h_8 =>
    cases v <;> cases h <;> exact hpath
  case h_9 | h_10 | h_11 =>
    cases v with
    | array members =>
      cases h
      have habsent := hlist members rfl
      clear h
      grind
    | _ => cases h

mutual

theorem SchemaNode.references_ofJson_subset :
    ∀ v : Json, (SchemaNode.ofJson v).references ⊆ v.references
  | .object entries => by
    obtain ⟨own, hown, hnode⟩ | ⟨s, -, hs, hnode⟩ | hnode := SchemaNode.ofJson_object_cases entries
    · rw [hnode, SchemaNode.references]
      refine List.cons_subset.2 ⟨?_, List.nil_subset _⟩
      exact Json.mem_references_object.2 ⟨_, mem_of_lookup hown, .inl rfl⟩
    · rw [hnode, SchemaNode.references, Json.references]
      exact Schema.references_ofEntries_subset entries hs
    · rw [hnode]
      exact List.nil_subset _
  | .array _ | .string _ | .null | .bool _ | .number _ => by
    simp [SchemaNode.ofJson, SchemaNode.references]

theorem Schema.references_ofEntries_subset : ∀ (entries : List (String × Json)) {s : Schema},
    Schema.ofEntries? entries = some s → s.references ⊆ Json.entryReferences entries
  | [], s, h => by
    cases h
    exact List.Subset.refl _
  | (key, v) :: rest, s, h => by
    intro path hpath
    rw [Json.entryReferences, List.mem_append, List.mem_append]
    obtain hv | ⟨s₀, hs₀, hpath⟩ := Schema.mem_references_cons h hpath
    · refine .inl (.inr ?_)
      obtain ⟨entries, rfl, hpath⟩ | ⟨members, rfl, hpath⟩ | hpath := hv
      · exact SchemaNode.propertyReferences_ofEntries_subset entries hpath
      · exact SchemaNode.memberReferences_ofList_subset members hpath
      · exact SchemaNode.references_ofJson_subset v hpath
    · exact .inr (Schema.references_ofEntries_subset rest hs₀ hpath)

theorem SchemaNode.propertyReferences_ofEntries_subset : ∀ entries : List (String × Json),
    SchemaNode.propertyReferences (SchemaNode.ofEntries entries) ⊆ Json.entryReferences entries
  | [] => List.Subset.refl _
  | (key, v) :: rest => by
    have hv := SchemaNode.references_ofJson_subset v
    have hrest := SchemaNode.propertyReferences_ofEntries_subset rest
    intro path hpath
    rw [SchemaNode.ofEntries, SchemaNode.propertyReferences, List.mem_append] at hpath
    rw [Json.entryReferences, List.mem_append, List.mem_append]
    exact hpath.imp (fun h => .inr (hv h)) fun h => hrest h

theorem SchemaNode.memberReferences_ofList_subset : ∀ items : List Json,
    SchemaNode.memberReferences (SchemaNode.ofList items) ⊆ Json.itemReferences items
  | [] => List.Subset.refl _
  | v :: rest => by
    have hv := SchemaNode.references_ofJson_subset v
    have hrest := SchemaNode.memberReferences_ofList_subset rest
    intro path hpath
    rw [SchemaNode.ofList, SchemaNode.memberReferences, List.mem_append] at hpath
    rw [Json.itemReferences, List.mem_append]
    exact hpath.imp (fun h => hv h) fun h => hrest h

end

end Schemas

section Readers

variable {α : Type} {read : Json → Option α} {held : α → List String}

namespace Json

/-- Whatever is read holds only references of the value that it is read from. -/
def Carries (read : Json → Option α) (held : α → List String) : Prop :=
  ∀ v a, read v = some a → held a ⊆ v.references

def fieldReferences (field : Option Json) : List String :=
  field.toList.flatMap references

theorem fieldReferences_subset {names : List String} {v : Json} {field : String → Option Json}
    (h : v.fields? names = some field) (name : String) :
    fieldReferences (field name) ⊆ v.references := by
  intro path hpath
  obtain ⟨w, hw, hheld⟩ := List.mem_flatMap.1 hpath
  rw [Option.mem_toList] at hw
  cases v with
  | object entries =>
    cases h
    exact references_subset_of_lookup hw hheld
  | array items =>
    rw [fields?] at h
    split at h
    · cases h
      have hitem : w ∈ items := (List.of_mem_zip (mem_of_lookup hw)).2
      exact mem_references_array.2 ⟨w, hitem, hheld⟩
    · cases h
  | _ => cases h

theorem Carries.optional? (h : Carries read held) {field : Option Json} {o : Option α}
    (ho : Json.optional? read field = some o) : o.toList.flatMap held ⊆ fieldReferences field := by
  cases field with
  | none =>
    cases ho
    exact List.nil_subset _
  | some v =>
    by_cases hv : v = .null
    · rw [hv] at ho
      cases ho
      exact List.nil_subset _
    · rw [optional?_some hv] at ho
      obtain ⟨a, ha, rfl⟩ := Option.map_eq_some_iff.1 ho
      simpa [fieldReferences] using h v a ha

theorem Carries.orDefault? (h : Carries read held) {default a : α} (hdefault : held default = [])
    {field : Option Json} (ha : Json.orDefault? default read field = some a) :
    held a ⊆ fieldReferences field := by
  cases field with
  | none =>
    cases ha
    rw [hdefault]
    exact List.nil_subset _
  | some v => simpa [fieldReferences] using h v a ha

theorem Carries.listOf? (h : Carries read held) :
    Carries (Json.listOf? read) fun l => l.flatMap held := by
  intro v l hl
  cases v with
  | array items =>
    change items.mapM read = some l at hl
    rw [references]
    induction items generalizing l with
    | nil =>
      obtain rfl : l = [] := by simpa using hl.symm
      exact List.nil_subset _
    | cons item items ih =>
      rw [List.mapM_cons] at hl
      obtain ⟨a, ha, hl⟩ := Option.bind_eq_some_iff.1 hl
      obtain ⟨more, hmore, hl⟩ := Option.bind_eq_some_iff.1 hl
      cases hl
      refine List.append_subset.2 ⟨?_, ?_⟩
      · exact List.subset_append_of_subset_left _ (h item a ha)
      · exact List.subset_append_of_subset_right _ (ih more hmore)
  | _ => cases hl

theorem Carries.readEntries? (h : Carries read held) {entries : List (String × Json)}
    {map : List (String × α)} (hmap : Json.readEntries? read entries = some map) :
    (map.flatMap fun entry => held entry.2) ⊆ entryReferences entries := by
  induction entries generalizing map with
  | nil =>
    cases hmap
    exact List.nil_subset _
  | cons entry entries ih =>
    obtain ⟨a, ha, hmap⟩ := Option.bind_eq_some_iff.1 hmap
    obtain ⟨more, hmore, hmap⟩ := Option.bind_eq_some_iff.1 hmap
    cases hmap
    refine List.append_subset.2 ⟨?_, ?_⟩
    · apply List.subset_append_of_subset_left
      exact List.subset_append_of_subset_right _ (h entry.2 a ha)
    · exact List.subset_append_of_subset_right _ (ih hmore)

theorem Carries.mapOf? (h : Carries read held) :
    Carries (Json.mapOf? read) fun map => map.flatMap fun entry => held entry.2 := by
  intro v map hmap
  cases v with
  | object entries =>
    obtain ⟨items, hitems, rfl⟩ := Option.map_eq_some_iff.1 hmap
    intro path hpath
    obtain ⟨entry, hentry, hpath⟩ := List.mem_flatMap.1 hpath
    rw [references]
    exact h.readEntries? hitems
      (List.mem_flatMap.2 ⟨entry, mem_of_mem_mapOfEntries hentry, hpath⟩)
  | _ => cases hmap

end Json

def RefOr.references (held : α → List String) : RefOr α → List String
  | .reference path => [path]
  | .item a => held a

theorem RefOr.carries (h : Json.Carries read held) :
    Json.Carries (RefOr.ofJson? read) (RefOr.references held) := by
  intro v node hnode
  rw [ofJson?] at hnode
  split at hnode
  · next path hpath =>
    cases hnode
    exact List.cons_subset.2 ⟨Json.mem_references_of_reference? hpath, List.nil_subset _⟩
  · obtain ⟨a, ha, rfl⟩ := Option.map_eq_some_iff.1 hnode
    exact h v a ha

end Readers

open Json

section Parts

theorem SchemaNode.carries :
    Carries (fun v => some (SchemaNode.ofJson v)) SchemaNode.references := by
  intro v node hnode
  cases hnode
  exact SchemaNode.references_ofJson_subset v

def Parameter.references (p : Parameter) : List String :=
  p.schema.toList.flatMap SchemaNode.references

def MediaType.references (m : MediaType) : List String :=
  m.schema.toList.flatMap SchemaNode.references

def Content.references (content : Content) : List String :=
  content.flatMap fun entry => entry.2.references

def RequestBody.references (b : RequestBody) : List String :=
  b.content.toList.flatMap Content.references

def Response.references (r : Response) : List String :=
  r.content.toList.flatMap Content.references

def Operation.references (o : Operation) : List String :=
  o.parameters.flatMap (RefOr.references Parameter.references) ++
    o.requestBody.toList.flatMap (RefOr.references RequestBody.references) ++
    o.responses.flatMap fun entry => entry.2.references Response.references

def PathItem.references (item : PathItem) : List String :=
  (item.operations.flatMap fun entry => entry.2.references) ++
    item.parameters.flatMap (RefOr.references Parameter.references)

def Endpoint.references (e : Endpoint) : List String :=
  e.operation.references ++ e.pathParameters.flatMap (RefOr.references Parameter.references)

theorem Parameter.carries : Carries Parameter.ofJson? Parameter.references := by
  intro v p hp
  simp only [ofJson?, Option.bind_eq_bind, Option.bind_eq_some_iff] at hp
  obtain ⟨field, hfield, schema, hschema, hp⟩ := hp
  cases hp
  exact List.Subset.trans (SchemaNode.carries.optional? hschema) (fieldReferences_subset hfield _)

theorem MediaType.carries : Carries MediaType.ofJson? MediaType.references := by
  intro v m hm
  simp only [ofJson?, Option.bind_eq_bind, Option.bind_eq_some_iff] at hm
  obtain ⟨field, hfield, schema, hschema, hm⟩ := hm
  cases hm
  exact List.Subset.trans (SchemaNode.carries.optional? hschema) (fieldReferences_subset hfield _)

theorem RequestBody.carries : Carries RequestBody.ofJson? RequestBody.references := by
  intro v b hb
  simp only [ofJson?, Option.bind_eq_bind, Option.bind_eq_some_iff] at hb
  obtain ⟨field, hfield, content, hcontent, hb⟩ := hb
  cases hb
  exact List.Subset.trans (MediaType.carries.mapOf?.optional? hcontent)
    (fieldReferences_subset hfield _)

theorem Response.carries : Carries Response.ofJson? Response.references := by
  intro v r hr
  simp only [ofJson?, Option.bind_eq_bind, Option.bind_eq_some_iff] at hr
  obtain ⟨field, hfield, content, hcontent, hr⟩ := hr
  cases hr
  exact List.Subset.trans (MediaType.carries.mapOf?.optional? hcontent)
    (fieldReferences_subset hfield _)

theorem Operation.carries : Carries Operation.ofJson? Operation.references := by
  intro v o ho
  cases v with
  | object entries =>
    simp only [ofJson?, Option.bind_eq_bind, Option.bind_eq_some_iff] at ho
    obtain ⟨parameters, hparameters, body, hbody, responses, hresponses, ho⟩ := ho
    cases ho
    have hfield := fieldReferences_subset (fields?_object Operation.keys entries)
    refine List.append_subset.2 ⟨List.append_subset.2 ⟨?_, ?_⟩, ?_⟩
    · exact List.Subset.trans ((RefOr.carries Parameter.carries).listOf?.orDefault? rfl hparameters)
        (hfield _)
    · exact List.Subset.trans ((RefOr.carries RequestBody.carries).optional? hbody) (hfield _)
    · exact List.Subset.trans ((RefOr.carries Response.carries).mapOf?.orDefault? rfl hresponses)
        (hfield _)
  | _ => cases ho

theorem PathItem.carries : Carries PathItem.ofJson? PathItem.references := by
  intro v item hitem
  simp only [ofJson?, Option.bind_eq_bind, Option.bind_eq_some_iff] at hitem
  obtain ⟨field, hfield, get, hget, put, hput, post, hpost, delete, hdelete, patch, hpatch,
    parameters, hparameters, hitem⟩ := hitem
  cases hitem
  have hoperation : ∀ {name : String} {o : Operation},
      optional? Operation.ofJson? (field name) = some (some o) → o.references ⊆ v.references := by
    intro name o ho
    have hheld :=
      List.Subset.trans (Operation.carries.optional? ho) (fieldReferences_subset hfield _)
    simpa using hheld
  refine List.append_subset.2 ⟨?_, ?_⟩
  · intro path hpath
    obtain ⟨⟨method, o⟩, ho, hpath⟩ := List.mem_flatMap.1 hpath
    obtain ⟨_, -, ho⟩ := List.mem_filterMap.1 ho
    obtain ⟨_, ho, heq⟩ := Option.map_eq_some_iff.1 ho
    cases heq
    cases method with
    | get => exact hoperation (hget.trans (congrArg some ho)) hpath
    | put => exact hoperation (hput.trans (congrArg some ho)) hpath
    | post => exact hoperation (hpost.trans (congrArg some ho)) hpath
    | delete => exact hoperation (hdelete.trans (congrArg some ho)) hpath
    | patch => exact hoperation (hpatch.trans (congrArg some ho)) hpath
  · exact List.Subset.trans ((RefOr.carries Parameter.carries).listOf?.orDefault? rfl hparameters)
      (fieldReferences_subset hfield _)

theorem Components.carries_schemas :
    Carries Components.ofJson? fun c => c.schemas.flatMap fun entry => entry.2.references := by
  intro v c hc
  simp only [ofJson?, Option.bind_eq_bind, Option.bind_eq_some_iff] at hc
  obtain ⟨field, hfield, schemas, hschemas, _, -, _, -, _, -, hc⟩ := hc
  cases hc
  exact List.Subset.trans (SchemaNode.carries.mapOf?.orDefault? rfl hschemas)
    (fieldReferences_subset hfield _)

end Parts

namespace Document

variable {d : Document}

theorem references_endpoint_subset {e : Endpoint} (he : e ∈ d.spec.endpoints) :
    e.references ⊆ d.tree.references := by
  obtain ⟨⟨path, item⟩, hitem, he⟩ := List.mem_flatMap.1 he
  obtain ⟨⟨method, o⟩, ho, rfl⟩ := List.mem_map.1 he
  have hreads := d.reads
  simp only [ApiSpec.ofJson?, Option.bind_eq_bind, Option.bind_eq_some_iff] at hreads
  obtain ⟨field, hfield, _, -, _, -, _, -, paths, hpaths, _, -, hspec⟩ := hreads
  rw [← Option.some.inj hspec] at hitem
  have hpaths := List.Subset.trans (PathItem.carries.mapOf?.orDefault? rfl hpaths)
    (fieldReferences_subset hfield _)
  have hheld : item.references ⊆ d.tree.references := fun reference hreference =>
    hpaths (List.mem_flatMap.2 ⟨_, hitem, hreference⟩)
  refine List.Subset.trans (List.append_subset.2 ⟨?_, ?_⟩) hheld
  · intro reference hreference
    exact List.mem_append_left _ (List.mem_flatMap.2 ⟨_, ho, hreference⟩)
  · exact List.subset_append_right _ _

theorem references_componentSchema_subset {entry : String × SchemaNode}
    (h : entry ∈ d.componentSchemas) : entry.2.references ⊆ d.tree.references := by
  have hreads := d.reads
  simp only [ApiSpec.ofJson?, Option.bind_eq_bind, Option.bind_eq_some_iff] at hreads
  obtain ⟨field, hfield, _, -, _, -, _, -, _, -, components, hcomponents, hspec⟩ := hreads
  have hheld := List.Subset.trans (Components.carries_schemas.optional? hcomponents)
    (fieldReferences_subset hfield _)
  rw [componentSchemas, ← Option.some.inj hspec] at h
  cases components with
  | none => cases h
  | some c =>
    intro reference hreference
    apply hheld
    simpa using ⟨entry.1, entry.2, h, hreference⟩

/-- A schema that a node resolves to holds only references of the tree, if the node does. -/
theorem references_subset_of_resolveSchema {node resolved : SchemaNode}
    (h : d.resolveSchema node = .ok resolved) (hnode : node.references ⊆ d.tree.references) :
    resolved.references ⊆ d.tree.references := by
  cases node with
  | reference path =>
    obtain ⟨found, hfound, h⟩ := bind_eq_ok.1 h
    cases found with
    | none =>
      cases h
      exact hnode
    | some v =>
      cases h
      exact List.Subset.trans (SchemaNode.references_ofJson_subset v)
        (references_subset_of_follow hfound)
  | _ =>
    cases h
    exact hnode

theorem references_subset_of_resolveRef {α : Type} {read : Json → Option α}
    {held : α → List String} (hread : Carries read held) {node : RefOr α} {a : α}
    (h : d.resolveRef read node = .ok (some a)) (hnode : node.references held ⊆ d.tree.references) :
    held a ⊆ d.tree.references := by
  cases node with
  | reference path =>
    obtain ⟨found, hfound, h⟩ := bind_eq_ok.1 h
    cases found with
    | none => cases h
    | some v =>
      dsimp only at h
      split at h
      · next ha =>
        cases h
        exact List.Subset.trans (hread v a ha) (references_subset_of_follow hfound)
      · cases h
  | item b =>
    cases h
    exact hnode

section Shared

/-- References that stand in both documents. -/
def Share (d' d : Document) (references : List String) : Prop :=
  references ⊆ d.tree.references ∧ references ⊆ d'.tree.references

variable {d' : Document} {references references' : List String}

theorem Share.mono (h : Share d' d references) (hsub : references' ⊆ references) :
    Share d' d references' :=
  ⟨List.Subset.trans hsub h.1, List.Subset.trans hsub h.2⟩

/-- Two sets of pending references that do not differ in shared ones. -/
def AgreeOn (d' d : Document) (pending' pending : List String) : Prop :=
  ∀ reference, Share d' d [reference] → (reference ∈ pending' ↔ reference ∈ pending)

theorem AgreeOn.without {pending' pending : List String} (h : AgreeOn d' d pending' pending)
    (reference : String) :
    AgreeOn d' d (Document.without reference pending') (Document.without reference pending) := by
  intro other hother
  rw [mem_without, mem_without, h other hother]

theorem agreeOn_append_references (first' first : List String) :
    AgreeOn d' d (first' ++ d'.tree.references) (first ++ d.tree.references) := by
  intro reference href
  have hmem := List.mem_singleton_self reference
  exact iff_of_true (List.mem_append_right _ (href.2 hmem)) (List.mem_append_right _ (href.1 hmem))

end Shared

end Document

end ApiClient
