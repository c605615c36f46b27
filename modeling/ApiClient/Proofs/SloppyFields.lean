import ApiClient.Proofs.Fields

namespace ApiClient

open Json

def Items.one : Part Items SchemaNode where
  get?
    | .single node => some node
    | .tuple _ => none
  change g
    | .single node => .single (g node)
    | .tuple nodes => .tuple nodes

def Items.several : Part Items (List SchemaNode) where
  get?
    | .single _ => none
    | .tuple nodes => some nodes
  change g
    | .single node => .single node
    | .tuple nodes => .tuple (g nodes)

theorem Items.isLawful_one : one.IsLawful where
  get?_change g items := by cases items <;> rfl
  change_change f g items := by cases items <;> rfl
  change_of_fixed {g items b} ha hg := by
    cases items with
    | tuple nodes => rfl
    | single node =>
      cases ha
      exact congrArg single hg

theorem Items.isLawful_several : several.IsLawful where
  get?_change g items := by cases items <;> rfl
  change_change f g items := by cases items <;> rfl
  change_of_fixed {g items b} ha hg := by
    cases items with
    | single node => rfl
    | tuple nodes =>
      cases ha
      exact congrArg tuple hg

/-- How the value of a field is read as another part of the document. -/
inductive Holds : {γ β : Type} → (Option Json → Option γ) → (Json → Option β) → Part γ β → Prop
  | optional {β : Type} (sub : Json → Option β) : Holds (optional? sub) sub .present
  | orDefault {β : Type} (default : β) (sub : Json → Option β) :
      Holds (orDefault? default sub) sub .whole
  | item : Holds (fun field => some (field.bind Items.ofJson?)) SchemaNode.ofJson?
      (Part.present.inside Items.one)
  | tuple : Holds (fun field => some (field.bind Items.ofJson?)) (listOf? SchemaNode.ofJson?)
      (Part.present.inside Items.several)

/-- From what is read as a whole to what is read as a part of it, one level down. Of several
entries of a map under one key the last counts. -/
inductive Enters : {α β : Type} → (Json → Option α) → (Json → Option β) → (Json → Json) →
    Part α β → Prop
  | field {α β γ : Type} {read : Json → Option α} {sub : Json → Option β} {key : String}
      {fieldRead : Option Json → Option γ} {get : α → γ} {set : γ → α → α} {part : Part γ β}
      (entries : List (String × Json)) (h : ObjectField read key fieldRead get set)
      (hpart : Holds fieldRead sub part) :
      Enters read sub (fun v => .object (insertEntry key v entries))
        ((Part.field get set).inside part)
  | position {α β γ : Type} {names : List String} {read : Json → Option α}
      {sub : Json → Option β} {key : String} {fieldRead : Option Json → Option γ} {get : α → γ}
      {set : γ → α → α} {part : Part γ β} {before : List Json} (after : List Json)
      (h : RecordField names read key fieldRead get set) (hpart : Holds fieldRead sub part)
      (hkey : names[before.length]? = some key) :
      Enters read sub (fun v => .array (before ++ v :: after)) ((Part.field get set).inside part)
  | entry {α : Type} (read : Json → Option α) {key : String} (before : List (String × Json))
      {after : List (String × Json)} (h : key ∉ after.map Prod.fst) :
      Enters (mapOf? read) read (fun v => .object (before ++ (key, v) :: after)) (.entry key)
  | item {α : Type} (read : Json → Option α) (before after : List Json) :
      Enters (listOf? read) read (fun v => .array (before ++ v :: after)) (.item before.length)
  | inPlace {α : Type} (read : Json → Option α) :
      Enters (RefOr.ofJson? read) read id RefOr.inPlace
  | schema : Enters SchemaNode.ofJson? Schema.ofJson? id SchemaNode.inPlace

/-- From what is read as a whole to what is read as a part of it, any number of levels down. -/
inductive Leads {α : Type} (read : Json → Option α) : {β : Type} → (Json → Option β) →
    (Json → Json) → Part α β → Prop
  | here : Leads read read id .whole
  | deeper {β γ : Type} {mid : Json → Option β} {sub : Json → Option γ} {tree tree' : Json → Json}
      {part : Part α β} {part' : Part β γ} (h : Leads read mid tree part)
      (h' : Enters mid sub tree' part') : Leads read sub (tree ∘ tree') (part.inside part')

section Levels

variable {α β γ : Type} {names : List String} {read : Json → Option α} {sub : Json → Option β}
  {key : String} {fieldRead : Option Json → Option γ} {get : α → γ} {set : γ → α → α}
  {tree : Json → Json}

theorem lookup_append_cons {before after : List (String × Json)} {key : String}
    (h : key ∉ before.map Prod.fst) (v : Json) :
    (before ++ (key, v) :: after).lookup key = some v := by
  have hbefore : before.lookup key = none := by
    rw [List.lookup_eq_none_iff]
    intro entry hentry
    simpa using fun heq : key = entry.1 => h (heq ▸ List.mem_map_of_mem hentry)
  rw [List.lookup_append, hbefore, List.lookup_cons_self, Option.none_or]

theorem lookup_append_cons_of_ne {before after : List (String × Json)} {key k : String}
    (h : k ≠ key) (v w : Json) :
    (before ++ (key, v) :: after).lookup k = (before ++ (key, w) :: after).lookup k := by
  simp only [List.lookup_append, lookup_cons_of_ne h]

theorem fields?_position {before after : List Json} (hnodup : names.Nodup)
    (hkey : names[before.length]? = some key) {v : Json} {field : String → Option Json}
    (h : (Json.array (before ++ v :: after)).fields? names = some field) :
    field key = some v ∧ ∀ w, ∃ field',
      (Json.array (before ++ w :: after)).fields? names = some field' ∧ field' key = some w ∧
        ∀ k, k ≠ key → field' k = field k := by
  obtain ⟨hlt, hkey⟩ := List.getElem?_eq_some_iff.1 hkey
  have hnames : names = names.take before.length ++ key :: names.drop (before.length + 1) := by
    simp [← hkey]
  have hbefore : key ∉ ((names.take before.length).zip before).map Prod.fst := by
    rw [hnames, List.nodup_append] at hnodup
    intro hmem
    obtain ⟨entry, hentry, heq⟩ := List.mem_map.1 hmem
    exact hnodup.2.2 _ (List.of_mem_zip hentry).1 key List.mem_cons_self heq
  have hzip : ∀ w, names.zip (before ++ w :: after) = (names.take before.length).zip before ++
      (key, w) :: (names.drop (before.length + 1)).zip after := by
    intro w
    conv => lhs; rw [hnames]
    rw [List.zip_append (by simp; omega), List.zip_cons_cons]
  have hfields : ∀ w, (Json.array (before ++ w :: after)).fields? names =
      if before.length + (after.length + 1) ≤ names.length then
        some fun name => ((names.take before.length).zip before ++
          (key, w) :: (names.drop (before.length + 1)).zip after).lookup name
      else none := by
    intro w
    simp [Json.fields?, hzip]
  rw [hfields] at h
  split at h
  · next hle =>
    cases h
    exact ⟨lookup_append_cons hbefore v, fun w => ⟨_, (hfields w).trans (if_pos hle),
      lookup_append_cons hbefore w, fun k hk => lookup_append_cons_of_ne hk w v⟩⟩
  · cases h

theorem RecordField.read_position (h : RecordField names read key fieldRead get set)
    {before after : List Json} (hkey : names[before.length]? = some key) {v : Json} {a : α}
    (ha : read (.array (before ++ v :: after)) = some a) :
    fieldRead (some v) = some (get a) ∧ ∀ {w x}, fieldRead (some w) = some x →
      read (.array (before ++ w :: after)) = some (set x a) := by
  obtain ⟨hnodup, -, build, hread, hbuild⟩ := h.exists_build
  rw [hread] at ha
  obtain ⟨field, hfield, ha⟩ := Option.bind_eq_some_iff.1 ha
  obtain ⟨hv, hother⟩ := fields?_position hnodup hkey hfield
  refine ⟨hv ▸ (hbuild ha).1, fun {w x} hw => ?_⟩
  obtain ⟨field', hfield', hw', hsame⟩ := hother w
  rw [hread, hfield', Option.bind_some]
  exact (hbuild ha).2 hsame (hw' ▸ hw)

theorem alike_insertEntry (hkey : key ≠ "$ref") (w : Json) (entries : List (String × Json)) :
    Alike (.object entries) (.object (insertEntry key w entries)) := by
  refine .object ?_
  simp only [reference?, get?, lookup_insertEntry, if_neg (Ne.symm hkey)]

theorem IsApart.read_insertEntry (h : IsApart read key fieldRead get set)
    {entries : List (String × Json)} {v : Json} {a : α}
    (ha : read (.object (insertEntry key v entries)) = some a) :
    fieldRead (some v) = some (get a) ∧ ∀ {w x}, fieldRead (some w) = some x →
      read (.object (insertEntry key w entries)) = some (set x a) := by
  have hv := h.read_field ha
  rw [lookup_insertEntry, if_pos rfl] at hv
  refine ⟨hv, fun {w x} hw => ?_⟩
  rw [← insertEntry_insertEntry key v w]
  exact h.read_insert ha hw

theorem Holds.isLawful {part : Part γ β} (h : Holds fieldRead sub part) : part.IsLawful := by
  cases h with
  | optional => exact Part.isLawful_present
  | orDefault => exact Part.isLawful_whole
  | item => exact Part.isLawful_present.inside Items.isLawful_one
  | tuple => exact Part.isLawful_present.inside Items.isLawful_several

theorem Holds.follows {part : Part γ β} (h : Holds fieldRead sub part) {v : Json} {c : γ} {b : β}
    (hv : fieldRead (some v) = some c) (hb : part.get? c = some b) :
    sub v = some b ∧ ∀ {w g}, Alike v w → sub w = some (g b) →
      fieldRead (some w) = some (part.change g c) := by
  cases h with
  | optional =>
    obtain rfl : c = some b := hb
    have hnull : v ≠ .null := by
      rintro rfl
      cases hv
    rw [optional?_some hnull, Option.map_eq_some_iff] at hv
    obtain ⟨_, hsub, heq⟩ := hv
    cases heq
    refine ⟨hsub, fun {w g} halike hw => ?_⟩
    have hnull' : w ≠ .null := by
      rintro rfl
      cases halike
    rw [optional?_some hnull', hw]
    rfl
  | orDefault =>
    cases hb
    exact ⟨hv, fun _ hw => hw⟩
  | item =>
    cases hv
    cases v with
    | array items => cases hb
    | null => cases hb
    | object entries =>
      cases hb
      refine ⟨rfl, fun {w g} halike hw => ?_⟩
      cases halike with
      | object => exact congrArg (fun node => some (some (Items.single node))) (Option.some.inj hw)
    | _ =>
      cases hb
      exact ⟨rfl, fun halike _ => nomatch halike⟩
  | tuple =>
    cases hv
    cases v with
    | array items =>
      cases hb
      refine ⟨SchemaNode.mapM_ofJson? items, fun {w g} halike hw => ?_⟩
      cases halike with
      | @array _ items' =>
        rw [listOf?, SchemaNode.mapM_ofJson?] at hw
        exact congrArg (fun nodes => some (some (Items.tuple nodes))) (Option.some.inj hw)
    | _ => cases hb

theorem Holds.inside {tree : Json → Json} {part : Part γ β} (h : Holds fieldRead sub part)
    (hfield : ∀ {v a}, read (tree v) = some a → fieldRead (some v) = some (get a) ∧
      ∀ {w x}, fieldRead (some w) = some x → Alike (tree v) (tree w) ∧
        read (tree w) = some (set x a)) :
    Follows read sub tree ((Part.field get set).inside part) := by
  intro v a b ha hb
  obtain ⟨hv, hother⟩ := hfield ha
  obtain ⟨hsub, hchange⟩ := h.follows hv hb
  exact ⟨hsub, fun halike hw => hother (hchange halike hw)⟩

theorem Enters.isLawful {part : Part α β} (h : Enters read sub tree part) : part.IsLawful := by
  cases h with
  | field entries h hpart => exact h.isApart.agree.isLawful_field.inside hpart.isLawful
  | position after h hpart hkey => exact h.agree.isLawful_field.inside hpart.isLawful
  | entry => exact Part.isLawful_entry _
  | item => exact Part.isLawful_item _
  | inPlace => exact RefOr.isLawful_inPlace
  | schema => exact SchemaNode.isLawful_inPlace

theorem Enters.follows {part : Part α β} (h : Enters read sub tree part) :
    Follows read sub tree part := by
  cases h with
  | field entries h hpart =>
    apply hpart.inside
    intro v a ha
    obtain ⟨hv, hother⟩ := h.isApart.read_insertEntry ha
    refine ⟨hv, fun {w x} hw => ⟨?_, hother hw⟩⟩
    rw [← insertEntry_insertEntry _ v w]
    exact alike_insertEntry h.isApart.key_ne w _
  | position after h hpart hkey =>
    apply hpart.inside
    intro v a ha
    obtain ⟨hv, hother⟩ := h.read_position hkey ha
    exact ⟨hv, fun hw => ⟨.array, hother hw⟩⟩
  | entry _ before h => exact follows_entry before h
  | item _ before after => exact follows_item before after
  | inPlace => exact follows_refOr
  | schema => exact follows_schema

theorem Leads.isLawful {part : Part α β} (h : Leads read sub tree part) : part.IsLawful := by
  induction h with
  | here => exact Part.isLawful_whole
  | deeper _ h' ih => exact ih.inside h'.isLawful

theorem Leads.follows {part : Part α β} (h : Leads read sub tree part) :
    Follows read sub tree part := by
  induction h with
  | here => exact follows_whole
  | deeper _ h' ih => exact ih.inside h'.follows

end Levels

theorem Document.exists_ofJson_eq_ok {tree : Json} {spec : ApiSpec} :
    (∃ d, ofJson tree = .ok d ∧ d.spec = spec) ↔ ApiSpec.ofJson? tree = some spec := by
  unfold ofJson
  constructor
  · rintro ⟨d, hd, rfl⟩
    split at hd
    · next h =>
      cases hd
      exact h
    · cases hd
  · intro h
    split
    · next spec' h' => exact ⟨_, rfl, Option.some.inj (h'.symm.trans h)⟩
    · next h' => cases h'.symm.trans h

/-- A document is accepted with any value in a field that is read forgivingly, at whatever depth the
object with the field stands. The field is read from the value, and with the old field put back the
document is the one before. -/
theorem Document.ofJson_insertEntry {α γ : Type} {sub : Json → Option α} {tree : Json → Json}
    {part : Part ApiSpec α} {key : String} {reading : Option Json → γ} {get : α → γ}
    {set : γ → α → α} (hplace : Leads ApiSpec.ofJson? sub tree part)
    (hfield : LenientField sub key reading get set) {entries : List (String × Json)} {d : Document}
    (hd : ofJson (tree (.object entries)) = .ok d) {a : α} (ha : part.get? d.spec = some a)
    (v : Json) :
    ∃ d', ofJson (tree (.object (insertEntry key v entries))) = .ok d' ∧
      (part.inside (Part.field get set)).get? d'.spec = some (reading (some v)) ∧
      d'.spec = (part.inside (Part.field get set)).change (fun _ => reading (some v)) d.spec ∧
      d.spec = (part.inside (Part.field get set)).change (fun _ => get a) d'.spec := by
  have hapart := hfield.isApart
  have hlawful := hplace.isLawful.inside hapart.agree.isLawful_field
  have hread := exists_ofJson_eq_ok.1 ⟨d, hd, rfl⟩
  obtain ⟨hsub, hchange⟩ := hplace.follows hread ha
  obtain ⟨-, hread'⟩ := hchange (alike_insertEntry hapart.key_ne v entries)
    (hapart.read_insert hsub rfl)
  obtain ⟨d', hd', hset⟩ := exists_ofJson_eq_ok.2 hread'
  have hspec : d'.spec =
      (part.inside (Part.field get set)).change (fun _ => reading (some v)) d.spec := hset
  have hold : (part.inside (Part.field get set)).get? d.spec = some (get a) := by
    simp only [Part.inside, ha, Part.field, Option.bind_some]
  refine ⟨d', hd', ?_, hspec, ?_⟩
  · rw [hspec]
    refine (hlawful.get?_change (fun _ => reading (some v)) d.spec).trans ?_
    rw [hold, Option.map_some]
  · rw [hspec]
    exact (hlawful.restore hold).symm

def propertyTree (v : Json) : Json :=
  .object [("components", .object [("schemas", .object [("Pet", .object [("properties",
    .object [("name", v)])])])])]

def propertyPart : Part ApiSpec Schema :=
  ((((((Part.whole.inside
    ((Part.field ApiSpec.components fun x spec => { spec with components := x }).inside
      .present)).inside
    ((Part.field Components.schemas fun x c => { c with schemas := x }).inside .whole)).inside
    (.entry "Pet")).inside SchemaNode.inPlace).inside
    ((Part.field Schema.properties fun x s => { s with properties := x }).inside .present)).inside
    (.entry "name")).inside SchemaNode.inPlace

theorem leads_propertyPart :
    Leads ApiSpec.ofJson? Schema.ofJson? propertyTree propertyPart := by
  have hlast (key : String) : key ∉ ([] : List (String × Json)).map Prod.fst := List.not_mem_nil
  have hcomponents := Leads.here.deeper (.field [] (.record .components) (.optional _))
  have hschemas := hcomponents.deeper (.field [] (.record .schemas) (.orDefault _ _))
  have hpet := (hschemas.deeper (.entry _ [] (hlast "Pet"))).deeper .schema
  have hproperties := hpet.deeper (.field [] .properties (.optional _))
  exact (hproperties.deeper (.entry _ [] (hlast "name"))).deeper .schema

theorem propertyTree_sloppy : ∃ d d',
    Document.ofJson (propertyTree (.object [("description", .string "a name")])) = .ok d ∧
      Document.ofJson (propertyTree (.object [("description", .number (.integer 7))])) = .ok d' ∧
      (propertyPart.get? d.spec).map Schema.description = some (some "a name") ∧
      (propertyPart.get? d'.spec).map Schema.description = some (some "7") := by
  obtain ⟨spec, hspec, hpart⟩ := Option.map_eq_some_iff.1
    (show (ApiSpec.ofJson? (propertyTree (.object [("description", .string "a name")]))).map
      (fun spec => (propertyPart.get? spec).map Schema.description) = some (some (some "a name")) by
      decide +kernel)
  obtain ⟨d, hd, rfl⟩ := Document.exists_ofJson_eq_ok.2 hspec
  obtain ⟨s, hs, hdescription⟩ := Option.map_eq_some_iff.1 hpart
  obtain ⟨d', hd', hget, -, -⟩ := Document.ofJson_insertEntry leads_propertyPart
    .schemaDescription hd hs (.number (.integer 7))
  obtain ⟨s', hs', hdescription'⟩ := Option.bind_eq_some_iff.1 hget
  refine ⟨d, d', hd, hd', hpart, ?_⟩
  rw [hs']
  exact congrArg some (Option.some.inj hdescription')

end ApiClient
