import ApiClient.Proofs.Census

namespace ApiClient

variable [Text.Transliteration]

namespace Run

/-- The operations that have calls, under each of their tags: tags in order of first occurrence, and
the operations of a tag in document order. -/
def emittedPairs (r : Run) : List (String × Endpoint) :=
  (distinct r.tagOccurrences).flatMap fun tag =>
    ((r.document.spec.members r.config r.overrides tag).filter fun e => !isSkipped e).map
      fun e => (tag, e)

def isBundled (pair : String × Endpoint) : Bool :=
  pair.2.operation.vendorBundle?.isSome

/-- A mapping that says what the bundle of an operation says, and a call of the operation under the
tag. The path is the one the call had before it was prefixed. -/
structure IsMapping (r : Run) (tag : String) (e : Endpoint) (m : VendorMapping) (call : Call) :
    Prop where
  key : call.key = e.key
  bundle : ∃ bundle, e.operation.vendorBundle? = some bundle ∧
    m.vendorAction = bundle.apiName ∧ m.vendorProduct = bundle.productCode ∧
    m.vendorVersion = bundle.antTechVersion ∧
    ((∃ path, bundle.antTechApiName = some path ∧ path ≠ "" ∧ m.path = path) ∨
      (∀ path, bundle.antTechApiName = some path → path = "") ∧
        m.path = aliasedPath e call.params)
  version : call.vendorVersion = m.vendorVersion
  prefixed : applyPrefix r.config r.overrides ⟨m.path, e.method, tag, call.functionName⟩ =
    (call.path, call.hasApiPrefix)

variable {r : Run} {c : Client} {tag : String}

omit [Text.Transliteration] in
theorem vendorPath?_cases (bundle : VendorBundle) (aliased : String) :
    (∃ path, bundle.antTechApiName = some path ∧ path ≠ "" ∧
        (vendorPath? (some bundle)).getD aliased = path) ∨
      (∀ path, bundle.antTechApiName = some path → path = "") ∧
        (vendorPath? (some bundle)).getD aliased = aliased := by
  cases hname : bundle.antTechApiName with
  | none => exact .inr ⟨nofun, by simp [vendorPath?, hname]⟩
  | some path =>
    by_cases hpath : path = ""
    · refine .inr ⟨fun _ h => Option.some.inj h ▸ hpath, ?_⟩
      simp [vendorPath?, hname, Option.filter, hpath]
    · refine .inl ⟨path, rfl, hpath, ?_⟩
      simp [vendorPath?, hname, Option.filter, hpath]

/-- A call comes with a mapping exactly when its operation has a bundle. -/
theorem mapping_cases {e : Endpoint} {part : CallPart} (h : r.IsPartOf tag e part) :
    (e.operation.vendorBundle? = none ∧ part.mapping = none) ∨
      ∃ m, e.operation.vendorBundle?.isSome = true ∧ part.mapping = some m ∧
        r.IsMapping tag e m part.call := by
  obtain ⟨used, names, shape, description, -, -, rfl⟩ := h
  cases hbundle : e.operation.vendorBundle? with
  | none => exact .inl ⟨rfl, by simp [callPart, hbundle]⟩
  | some bundle =>
    refine .inr ⟨vendorMapping ((vendorPath? (some bundle)).getD
      (aliasedPath e (callParams shape.params.groups))) bundle, rfl, ?_, ?_⟩
    · simp [callPart, hbundle]
    · constructor
      case key => rfl
      case bundle => exact ⟨bundle, hbundle, rfl, rfl, rfl, vendorPath?_cases bundle _⟩
      case version => simp [callPart, hbundle, vendorMapping]
      case prefixed => simp [callPart, hbundle, vendorMapping]

def HasMapping (r : Run) (c : Client) (pair : String × Endpoint) (m : VendorMapping) : Prop :=
  ∃ call, (pair.1, call) ∈ c.taggedCalls ∧ r.IsMapping pair.1 pair.2 m call

theorem forall₂_tagMappings {es : List Endpoint} {parts : List CallPart}
    (h : List.Forall₂ (r.IsPartOf tag) es parts)
    (hcalls : ∀ part ∈ parts, (tag, part.call) ∈ c.taggedCalls) :
    List.Forall₂ (r.HasMapping c)
      ((es.map fun e => (tag, e)).filter isBundled)
      (parts.filterMap CallPart.mapping) := by
  induction h with
  | nil => exact .nil
  | cons hpart _ ih =>
    obtain ⟨hcall, hcalls⟩ := List.forall_mem_cons.1 hcalls
    rw [List.map_cons]
    obtain ⟨hnone, hmapping⟩ | ⟨m, hsome, hmapping, hm⟩ := mapping_cases hpart
    · rw [List.filter_cons_of_neg (by simp [isBundled, hnone]), List.filterMap_cons_none hmapping]
      exact ih hcalls
    · have hbundled : isBundled (tag, _) = true := hsome
      rw [List.filter_cons_of_pos hbundled, List.filterMap_cons_some hmapping]
      exact .cons ⟨_, hcall, hm⟩ (ih hcalls)

def groupPairs (groups : List (String × List Endpoint)) : List (String × Endpoint) :=
  groups.flatMap fun group => (group.2.filter fun e => !isSkipped e).map fun e => (group.1, e)

theorem groupPairs_groups : groupPairs r.groups = r.emittedPairs := by
  have htags : r.groups.map Prod.fst = distinct r.tagOccurrences := map_fst_groups
  rw [emittedPairs, ← htags, List.flatMap_map, groupPairs]
  refine List.flatMap_congr fun group hgroup => ?_
  rw [groups_spec hgroup]

theorem forall₂_mappings {groups : List (String × List Endpoint)}
    {calls : List (Nat × String × TagCalls)} (h : List.Forall₂ r.IsCollected groups calls)
    (hcalls : ∀ entry ∈ calls, ∀ call ∈ entry.2.2.operations, (entry.2.1, call) ∈ c.taggedCalls) :
    List.Forall₂ (r.HasMapping c)
      ((groupPairs groups).filter isBundled)
      (calls.flatMap fun entry => entry.2.2.mappings) := by
  induction h with
  | nil => exact .nil
  | @cons group entry _ _ hgroup _ ih =>
    obtain ⟨hentry, hcalls⟩ := List.forall_mem_cons.1 hcalls
    obtain ⟨htag, names, names', parts, hparts, hcollected⟩ := hgroup
    rw [htag, hcollected] at hentry
    have hbuilt : ∀ part ∈ parts, (group.1, part.call) ∈ c.taggedCalls := fun part hpart =>
      hentry part.call ((Text.sortByKey_perm _).mem_iff.2 (List.mem_map_of_mem hpart))
    rw [groupPairs, List.flatMap_cons, List.filter_append, List.flatMap_cons, hcollected]
    exact List.rel_append (forall₂_tagMappings (forall₂_tagParts hparts) hbuilt) (ih hcalls)

/-- The mappings of a client are those of its calls. -/
structure MapsVendors (r : Run) (c : Client) : Prop where
  census : (c.taggedCalls.map fun entry => (entry.1, entry.2.key)).Perm
    (r.emittedPairs.map fun pair => (pair.1, pair.2.key))
  nodup : (r.emittedPairs.map fun pair => (pair.1, pair.2.key)).Nodup
  mappings : List.Forall₂ (r.HasMapping c) (r.emittedPairs.filter isBundled) c.mappings

theorem client_mapsVendors (r : Run) (c : Client) (h : r.client = .ok c) : r.MapsVendors c := by
  have hpairs : r.emittedPairs.map (fun pair => (pair.1, pair.2.key)) = groupCensus r.groups := by
    rw [← groupPairs_groups, groupPairs, groupCensus, List.map_flatMap]
    simp only [List.map_map, Function.comp_def]
  constructor
  case census =>
    rw [hpairs, map_key_taggedCalls]
    exact census_perm h
  case nodup =>
    rw [hpairs]
    exact nodup_groupCensus
  case mappings =>
    obtain ⟨calls, interfaces, hcalls, -, hservices, -, hmappings⟩ := client_eq_ok h
    rw [← groupPairs_groups, hmappings]
    refine forall₂_mappings (forall₂_allCalls hcalls) fun entry hentry call hcall => ?_
    rw [Client.taggedCalls, hservices, taggedCalls_serviceUnits]
    exact List.mem_flatMap.2 ⟨entry, hentry, List.mem_map_of_mem hcall⟩

end Run

end ApiClient

namespace ApiClient.Run

def vendorOperation (tags : List String) (vendor : List (String × Json)) : Json :=
  .object [("tags", Json.strings tags), (VendorBundle.extensionKey, .object vendor)]

/-- A vendor path under two tags, a bundle without a path, one that cannot be read, and one of an
operation that is left out. -/
def vendorRun : Run where
  document := (ofTree .default (documentTree [
    ("/orders/{id}", .object [("get", vendorOperation ["shop", "admin"]
      [("apiName", .string "order.get"), ("antTechApiName", .string "/vendor/order"),
        ("antTechVersion", .string "2.1")])]),
    ("/bills/{id}", .object [("get", vendorOperation ["admin"]
      [("productCode", .string "PAY"), ("antTechApiName", .string "")])]),
    ("/audits", .object [("get", vendorOperation ["admin"] [("apiName", .bool true)])]),
    ("/${stage}", .object [("get", vendorOperation ["admin"] [])])] [])
    (by decide +kernel)).document
  config := .default
  overrides := { Overrides.none with apiPrefix := fun _ => some "'/api'" }

theorem vendorRun_mappings : ∃ c, vendorRun.client = .ok c ∧
    c.mappings = [⟨"/vendor/order", some "order.get", none, some "2.1"⟩,
      ⟨"/vendor/order", some "order.get", none, some "2.1"⟩,
      ⟨"/bills/${param0}", none, some "PAY", none⟩] ∧
    c.taggedCalls.map (fun entry => (entry.1, entry.2.path)) = [("shop", "/api/vendor/order"),
      ("admin", "/api/audits"), ("admin", "/api/bills/${param0}"),
      ("admin", "/api/vendor/order")] ∧
    vendorRun.MapsVendors c := by
  obtain ⟨c, hc, heq⟩ : ∃ c, vendorRun.client = .ok c ∧
      (c.mappings, c.taggedCalls.map fun entry => (entry.1, entry.2.path)) =
        ([⟨"/vendor/order", some "order.get", none, some "2.1"⟩,
          ⟨"/vendor/order", some "order.get", none, some "2.1"⟩,
          ⟨"/bills/${param0}", none, some "PAY", none⟩],
        [("shop", "/api/vendor/order"), ("admin", "/api/audits"),
          ("admin", "/api/bills/${param0}"), ("admin", "/api/vendor/order")]) :=
    exists_ok_of_map (by decide +kernel)
  obtain ⟨hmappings, hpaths⟩ := Prod.mk.inj heq
  exact ⟨c, hc, hmappings, hpaths, client_mapsVendors vendorRun c hc⟩

end ApiClient.Run
