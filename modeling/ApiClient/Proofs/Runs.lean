import ApiClient.Client.Generation
import ApiClient.Proofs.Distinct
import ApiClient.Proofs.Sorting

namespace ApiClient

theorem exists_of_forall₂ {α β : Type} {R : α → β → Prop} {l : List α} {m : List β}
    (h : List.Forall₂ R l m) {b : β} (hb : b ∈ m) : ∃ a ∈ l, R a b := by
  induction h with
  | nil => simp at hb
  | cons hab _ ih =>
    obtain rfl | hb := List.mem_cons.1 hb
    · exact ⟨_, by simp, hab⟩
    · obtain ⟨a, ha, hr⟩ := ih hb
      exact ⟨a, by simp [ha], hr⟩

theorem exists_of_forall₂_left {α β : Type} {R : α → β → Prop} {l : List α} {m : List β}
    (h : List.Forall₂ R l m) {a : α} (ha : a ∈ l) : ∃ b ∈ m, R a b :=
  exists_of_forall₂ h.flip ha

section Results

variable {α β ε : Type}

theorem bind_eq_ok {x : Except ε α} {f : α → Except ε β} {b : β} :
    (x >>= f) = .ok b ↔ ∃ a, x = .ok a ∧ f a = .ok b := by
  cases x with
  | error cause => simp [bind, Except.bind]
  | ok a => simp [bind, Except.bind]

theorem exists_bind_ok {x : Except ε α} {f : α → Except ε β} (hx : ∃ a, x = .ok a)
    (hf : ∀ a, x = .ok a → ∃ b, f a = .ok b) : ∃ b, (x >>= f) = .ok b := by
  obtain ⟨a, ha⟩ := hx
  obtain ⟨b, hb⟩ := hf a ha
  exact ⟨b, bind_eq_ok.2 ⟨a, ha, hb⟩⟩

theorem forall₂_of_mapM {f : α → Except ε β} {l : List α} {m : List β} (h : l.mapM f = .ok m) :
    List.Forall₂ (fun a b => f a = .ok b) l m := by
  induction l generalizing m with
  | nil =>
    cases h
    exact .nil
  | cons a l ih =>
    rw [List.mapM_cons] at h
    obtain ⟨b, hb, h⟩ := bind_eq_ok.1 h
    obtain ⟨bs, hbs, h⟩ := bind_eq_ok.1 h
    cases h
    exact .cons hb (ih hbs)

theorem exists_mapM_ok {f : α → Except ε β} {l : List α} (h : ∀ a ∈ l, ∃ b, f a = .ok b) :
    ∃ m, l.mapM f = .ok m := by
  induction l with
  | nil => exact ⟨[], rfl⟩
  | cons a l ih =>
    obtain ⟨⟨b, hb⟩, hrest⟩ := List.forall_mem_cons.1 h
    obtain ⟨m, hm⟩ := ih hrest
    refine ⟨b :: m, ?_⟩
    rw [List.mapM_cons, hb, hm]
    rfl

theorem bind_congr_of_ok {x y : Except ε α} {f g : α → Except ε β} (hx : x = y)
    (hf : ∀ a, y = .ok a → f a = g a) : (x >>= f) = y >>= g := by
  subst hx
  cases x with
  | error cause => rfl
  | ok a => exact hf a rfl

theorem mapM_congr_of_mem {f g : α → Except ε β} {l : List α} (h : ∀ a ∈ l, f a = g a) :
    l.mapM f = l.mapM g := by
  induction l with
  | nil => rfl
  | cons a l ih =>
    obtain ⟨ha, hrest⟩ := List.forall_mem_cons.1 h
    rw [List.mapM_cons, List.mapM_cons, ha, ih hrest]

end Results

variable [Text.Transliteration]

section Groups

variable (spec : ApiSpec) (c : Config) (o : Overrides)

/-- The endpoints of a tag, in document order. -/
def ApiSpec.members (tag : String) : List Endpoint :=
  spec.endpoints.filter fun e => tag ∈ e.tags c o

variable {spec c o} in
theorem Endpoint.mem_tags {tag : String} {e : Endpoint} :
    tag ∈ e.tags c o ↔ ∃ raw ∈ e.rawTags o, foldTag c.isCamelCase raw = tag := by
  simp [tags]

theorem Endpoint.nodup_tags (e : Endpoint) : (e.tags c o).Nodup :=
  nodup_distinct _

theorem listed_eq_filter (tag : String) (es : List Endpoint) :
    ((es.flatMap fun e => (e.tags c o).map fun t => (t, e)).filter fun entry =>
      entry.1 == tag).map Prod.snd = es.filter fun e => tag ∈ e.tags c o := by
  induction es with
  | nil => rfl
  | cons e es ih =>
    have one : (((e.tags c o).map fun t => (t, e)).filter fun entry => entry.1 == tag) =
        if tag ∈ e.tags c o then [(tag, e)] else [] := by
      rw [List.filter_map]
      change ((e.tags c o).filter (· == tag)).map _ = _
      rw [List.filter_beq, (Endpoint.nodup_tags c o e).count]
      split <;> rfl
    rw [List.flatMap_cons, List.filter_append, List.map_append, ih, one, List.filter_cons]
    by_cases h : tag ∈ e.tags c o <;> simp [h]

variable {spec c o} in
theorem ApiSpec.mem_members {tag : String} {e : Endpoint} :
    e ∈ spec.members c o tag ↔ e ∈ spec.endpoints ∧ tag ∈ e.tags c o := by
  simp [members]

theorem ApiSpec.groups_eq :
    spec.groups c o = (distinct (spec.endpoints.flatMap (Endpoint.tags c o))).map fun tag =>
      (tag, spec.members c o tag) := by
  have htags : (spec.endpoints.flatMap fun e => (e.tags c o).map fun t => (t, e)).map Prod.fst =
      spec.endpoints.flatMap (Endpoint.tags c o) := by
    rw [List.map_flatMap]
    simp only [List.map_map, Function.comp_def, List.map_id']
  simp only [ApiSpec.groups, htags, listed_eq_filter, ApiSpec.members]

end Groups

namespace Run

variable {r : Run} {tag : String}

theorem tagParts_cons {used : NameCounts} {names names' : ParamsTypeNames} {e : Endpoint}
    {rest : List Endpoint} {parts : List CallPart}
    (h : r.tagParts tag used names (e :: rest) = (.ok parts, names')) :
    (isSkipped e = true ∧ r.tagParts tag used names rest = (.ok parts, names')) ∨
    (isSkipped e = false ∧ ∃ shape description part names₁ more,
      r.shape e = .ok shape ∧ r.describe e (used.take (r.functionName e)).1 = .ok description ∧
      r.callPart tag e shape (used.take (r.functionName e)).1 description names = (part, names₁) ∧
      r.tagParts tag (used.take (r.functionName e)).2 names₁ rest = (.ok more, names') ∧
      parts = part :: more) := by
  rw [tagParts] at h
  split at h
  · next hs => exact .inl ⟨hs, h⟩
  · next hs =>
    refine .inr ⟨Bool.eq_false_iff.2 hs, ?_⟩
    cases hshape : r.shape e with
    | error cause => simp [hshape, bind, Except.bind] at h
    | ok shape =>
      cases hd : r.describe e (used.take (r.functionName e)).1 with
      | error cause => simp [hshape, hd, bind, Except.bind] at h
      | ok description =>
        simp only [hshape, hd, bind, Except.bind, pure, Except.pure] at h
        obtain ⟨hmore, rfl⟩ := Prod.mk.inj h
        cases hrest : (r.tagParts tag (used.take (r.functionName e)).2
            (r.callPart tag e shape (used.take (r.functionName e)).1 description names).2 rest).1 with
        | error cause => simp [hrest, Except.map] at hmore
        | ok more =>
          rw [hrest] at hmore
          exact ⟨shape, description, _, _, more, rfl, rfl, rfl, Prod.ext hrest rfl,
            (Except.ok.inj hmore).symm⟩

theorem tagParts_of_drafted {used : NameCounts} {names names₁ : ParamsTypeNames} {e : Endpoint}
    {rest : List Endpoint} {shape : CallShape} {description : String} {part : CallPart}
    (hs : isSkipped e = false) (hshape : r.shape e = .ok shape)
    (hd : r.describe e (used.take (r.functionName e)).1 = .ok description)
    (hpart : r.callPart tag e shape (used.take (r.functionName e)).1 description names =
      (part, names₁)) :
    r.tagParts tag used names (e :: rest) =
      ((r.tagParts tag (used.take (r.functionName e)).2 names₁ rest).1.map (part :: ·),
        (r.tagParts tag (used.take (r.functionName e)).2 names₁ rest).2) := by
  rw [tagParts, if_neg (by simp [hs])]
  simp only [hshape, hd, hpart, bind, Except.bind, pure, Except.pure]

theorem tagParts_nil {used : NameCounts} {names names' : ParamsTypeNames} {parts : List CallPart}
    (h : r.tagParts tag used names [] = (.ok parts, names')) : parts = [] ∧ names' = names := by
  obtain ⟨hp, rfl⟩ := Prod.mk.inj h
  exact ⟨(Except.ok.inj hp).symm, rfl⟩

/-- A part that a run may build for an endpoint, whatever names it has given before. -/
def IsPartOf (r : Run) (tag : String) (e : Endpoint) (part : CallPart) : Prop :=
  ∃ (used : NameCounts) (names : ParamsTypeNames) (shape : CallShape) (description : String),
    r.shape e = .ok shape ∧ r.describe e (used.take (r.functionName e)).1 = .ok description ∧
    part = (r.callPart tag e shape (used.take (r.functionName e)).1 description names).1

theorem forall₂_tagParts {used : NameCounts} {names names' : ParamsTypeNames}
    {es : List Endpoint} {parts : List CallPart}
    (h : r.tagParts tag used names es = (.ok parts, names')) :
    List.Forall₂ (r.IsPartOf tag) (es.filter fun e => !isSkipped e) parts := by
  induction es generalizing used names parts with
  | nil =>
    obtain ⟨rfl, -⟩ := tagParts_nil h
    exact .nil
  | cons e rest ih =>
    obtain ⟨hs, hrest⟩ |
      ⟨hs, shape, description, part, names₁, more, hshape, hd, hpart, hmore, rfl⟩ := tagParts_cons h
    · rw [List.filter_cons_of_neg (by simp [hs])]
      exact ih hrest
    · rw [List.filter_cons_of_pos (by simp [hs])]
      exact .cons ⟨used, names, shape, description, hshape, hd, by rw [hpart]⟩ (ih hmore)

theorem allCalls_cons {index : Nat} {names : ParamsTypeNames} {es : List Endpoint}
    {rest : List (String × List Endpoint)} {calls : List (Nat × String × TagCalls)}
    (h : r.allCalls index names ((tag, es) :: rest) = .ok calls) :
    ∃ parts names₁ more, r.tagParts tag [] names es = (.ok parts, names₁) ∧
      r.allCalls (index + 1) names₁ rest = .ok more ∧
      calls = (index, tag, collectParts parts) :: more := by
  cases hp : r.tagParts tag [] names es with
  | mk result names₁ =>
    simp only [allCalls, tagCalls, hp, bind, Except.bind, pure, Except.pure] at h
    cases result with
    | error cause => simp [Except.map] at h
    | ok parts =>
      simp only [Except.map] at h
      cases hm : r.allCalls (index + 1) names₁ rest with
      | error cause => simp [hm] at h
      | ok more =>
        simp only [hm, Except.ok.injEq] at h
        exact ⟨parts, names₁, more, rfl, hm, h.symm⟩

/-- What a successful run has for a group: the parts of its endpoints, collected. -/
def IsCollected (r : Run) (group : String × List Endpoint) (entry : Nat × String × TagCalls) :
    Prop :=
  entry.2.1 = group.1 ∧ ∃ names names' parts,
    r.tagParts group.1 [] names group.2 = (.ok parts, names') ∧ entry.2.2 = collectParts parts

theorem forall₂_allCalls {index : Nat} {names : ParamsTypeNames}
    {groups : List (String × List Endpoint)} {calls : List (Nat × String × TagCalls)}
    (h : r.allCalls index names groups = .ok calls) :
    List.Forall₂ r.IsCollected groups calls := by
  induction groups generalizing index names calls with
  | nil =>
    cases h
    exact .nil
  | cons group rest ih =>
    obtain ⟨tag, es⟩ := group
    obtain ⟨parts, names₁, more, hp, hm, rfl⟩ := allCalls_cons h
    exact .cons ⟨rfl, names, names₁, parts, hp, rfl⟩ (ih hm)

theorem groups_spec {r : Run} {group : String × List Endpoint} (h : group ∈ r.groups) :
    group.2 = r.document.spec.members r.config r.overrides group.1 := by
  rw [groups, ApiSpec.groups_eq] at h
  obtain ⟨tag, -, rfl⟩ := List.mem_map.1 h
  rfl

theorem client_eq_ok {c : Client} (h : r.client = .ok c) :
    ∃ calls interfaces, r.allCalls 0 .empty r.groups = .ok calls ∧
      r.document.interfaces r.typing r.config.enumStyle = .ok interfaces ∧
      c.services = r.serviceUnits calls ∧
      c.interfaces = Text.sortByKey Interface.typeName
        (interfaces ++ calls.flatMap fun (_, _, t) => t.paramsTypes) ∧
      c.mappings = calls.flatMap fun (_, _, t) => t.mappings := by
  cases hc : r.allCalls 0 .empty r.groups with
  | error cause => simp [client, hc, bind, Except.bind] at h
  | ok calls =>
    cases hi : r.document.interfaces r.typing r.config.enumStyle with
    | error cause => simp [client, hc, hi, bind, Except.bind] at h
    | ok interfaces =>
      simp only [client, hc, hi, bind, Except.bind, pure, Except.pure, Except.ok.injEq] at h
      subst h
      exact ⟨calls, interfaces, rfl, rfl, rfl, rfl, rfl⟩

theorem exists_tagParts_of_mem_services {c : Client} (h : r.client = .ok c) {u : ServiceUnit}
    (hu : u ∈ c.services) :
    ∃ names names' parts,
      r.tagParts u.tag [] names (r.document.spec.members r.config r.overrides u.tag) =
        (.ok parts, names') ∧
      u.operations = Text.sortByKey Call.path (parts.map CallPart.call) := by
  obtain ⟨calls, interfaces, hcalls, -, hservices, -, -⟩ := client_eq_ok h
  rw [hservices, serviceUnits] at hu
  obtain ⟨⟨index, tag, t⟩, hmem, rfl⟩ := List.mem_map.1 hu
  obtain ⟨group, hgroup, htag, names, names', parts, hparts, ht⟩ :=
    exists_of_forall₂ (forall₂_allCalls hcalls) (List.mem_filter.1 hmem).1
  rw [groups_spec hgroup, ← htag] at hparts
  exact ⟨names, names', parts, hparts, congrArg TagCalls.operations ht⟩

theorem exists_isPartOf {c : Client} (h : r.client = .ok c) {u : ServiceUnit}
    (hu : u ∈ c.services) {call : Call} (hcall : call ∈ u.operations) :
    ∃ e ∈ r.document.spec.members r.config r.overrides u.tag, isSkipped e = false ∧
      ∃ part, r.IsPartOf u.tag e part ∧ part.call = call := by
  obtain ⟨names, names', parts, hparts, hops⟩ := exists_tagParts_of_mem_services h hu
  rw [hops, (Text.sortByKey_perm _).mem_iff] at hcall
  obtain ⟨part, hpart, rfl⟩ := List.mem_map.1 hcall
  obtain ⟨e, he, hpartOf⟩ := exists_of_forall₂ (forall₂_tagParts hparts) hpart
  obtain ⟨hmember, hs⟩ := List.mem_filter.1 he
  exact ⟨e, hmember, by simpa using hs, part, hpartOf, rfl⟩

theorem shape_eq_ok {e : Endpoint} {s : CallShape} (h : r.shape e = .ok s) :
    e.params r.document r.typing = .ok s.params ∧ e.body r.document r.typing = .ok s.body ∧
      e.files r.document = .ok s.file ∧
      e.response r.document r.typing r.config.dataFields = .ok s.response := by
  obtain ⟨params, hparams, h⟩ := bind_eq_ok.1 h
  obtain ⟨body, hbody, h⟩ := bind_eq_ok.1 h
  obtain ⟨file, hfile, h⟩ := bind_eq_ok.1 h
  obtain ⟨response, hresponse, h⟩ := bind_eq_ok.1 h
  cases h
  exact ⟨hparams, hbody, hfile, hresponse⟩

end Run

/-- The component schemas with their names, in document order. -/
def Document.componentSchemas (d : Document) : List (String × SchemaNode) :=
  (d.spec.components.map (·.schemas)).getD []

theorem Document.forall₂_interfaces {d : Document} {t : Typing} {style : EnumStyle}
    {is : List Interface} (h : d.interfaces t style = .ok is) :
    List.Forall₂ (fun entry i => ∃ named, NamedType.ofNode d t style entry.2 = .ok named ∧
      i = named.toInterface entry.1) d.componentSchemas is := by
  refine (forall₂_of_mapM h).imp fun entry i hi => ?_
  obtain ⟨named, hnamed, hi⟩ := bind_eq_ok.1 hi
  exact ⟨named, hnamed, (Except.ok.inj hi).symm⟩

theorem Endpoint.params_eq_ok {d : Document} {t : Typing} {e : Endpoint} {p : ClassifiedParams}
    (h : e.params d t = .ok p) : ∃ named grouped,
      e.namedParameters d = .ok named ∧ (named.filter isGrouped).mapM (toParam d t) = .ok grouped ∧
      p.groups.path = addImplied (grouped.filter fun q => q.location == "path")
        (Path.tokenNames e.path) := by
  obtain ⟨named, hnamed, h⟩ := bind_eq_ok.1 h
  obtain ⟨grouped, hgrouped, h⟩ := bind_eq_ok.1 h
  cases h
  exact ⟨named, grouped, hnamed, hgrouped, rfl⟩

end ApiClient

namespace ApiClient

def documentTree (paths schemas : List (String × Json)) : Json :=
  .object [("paths", .object paths), ("components", .object [("schemas", .object schemas)])]

def operationTree (id : String) (tags params : List String) : Json :=
  .object [("operationId", .string id), ("tags", Json.strings tags),
    ("parameters", .array (params.map fun name =>
      .object [("name", .string name), ("in", .string "query")]))]

/-- The run over a tree that reads as a document, without overrides. -/
def Run.ofTree (config : Config) (tree : Json) (h : (ApiSpec.ofJson? tree).isSome = true) : Run :=
  ⟨⟨tree, (ApiSpec.ofJson? tree).get h, (Option.some_get h).symm⟩, config, .none⟩

theorem exists_ok_of_map {α β : Type} {f : α → β} {b : β} {result : Except Failure α}
    (h : result.toOption.map f = some b) : ∃ a, result = .ok a ∧ f a = b := by
  cases result with
  | error cause => simp [Except.toOption] at h
  | ok a => exact ⟨a, rfl, Option.some.inj h⟩

theorem exists_unit_of_map {β : Type} {c : Client} {f : ServiceUnit → β} {b : β}
    (h : c.services.map f = [b]) : ∃ u ∈ c.services, f u = b :=
  List.mem_map.1 (h ▸ List.mem_singleton_self b)

theorem exists_call_of_mem {β : Type} {c : Client} {f : Call → β} {b : β}
    (h : b ∈ c.services.flatMap fun u => u.operations.map f) :
    ∃ u ∈ c.services, ∃ call ∈ u.operations, f call = b := by
  obtain ⟨u, hu, hb⟩ := List.mem_flatMap.1 h
  exact ⟨u, hu, List.mem_map.1 hb⟩

end ApiClient
