import ApiClient.Proofs.Keys
import ApiClient.Proofs.Pieces
import ApiClient.Proofs.Runs

namespace ApiClient

def Call.key (call : Call) : String × String :=
  (call.rawPath, call.method)

def Client.taggedCalls (c : Client) : List (String × Call) :=
  c.services.flatMap fun u => u.operations.map fun call => (u.tag, call)

/-- Tag, path and method of every call. -/
def Client.census (c : Client) : List (String × String × String) :=
  c.services.flatMap fun u => u.operations.map fun call => (u.tag, call.key)

variable [Text.Transliteration]

namespace Run

variable {r : Run} {c : Client}

omit [Text.Transliteration] in
theorem map_key_taggedCalls (c : Client) :
    (c.taggedCalls.map fun entry => (entry.1, entry.2.key)) = c.census := by
  simp only [Client.taggedCalls, Client.census, List.map_flatMap, List.map_map, Function.comp_def]

/-- Every tag of every operation, in document order and with repetitions. -/
def tagOccurrences (r : Run) : List String :=
  r.document.spec.endpoints.flatMap fun e =>
    (e.rawTags r.overrides).map (Endpoint.foldTag r.config.isCamelCase)

/-- Where an operation stands in the document. -/
def position (r : Run) (call : Call) : Nat :=
  (r.document.spec.endpoints.map Endpoint.key).idxOf call.key

theorem key_of_isPartOf {tag : String} {e : Endpoint} {part : CallPart}
    (h : r.IsPartOf tag e part) : part.call.key = e.key := by
  obtain ⟨used, names, shape, description, -, -, rfl⟩ := h
  rfl

theorem keys_tagParts {tag : String} {used : NameCounts} {names names' : ParamsTypeNames}
    {es : List Endpoint} {parts : List CallPart}
    (h : r.tagParts tag used names es = (.ok parts, names')) :
    (parts.map CallPart.call).map Call.key =
      (es.filter fun e => !isSkipped e).map Endpoint.key := by
  have run := forall₂_tagParts h
  clear h
  generalize es.filter (fun e => !isSkipped e) = built at run
  induction run with
  | nil => rfl
  | cons hpart _ ih => rw [List.map_cons, List.map_cons, List.map_cons, ih, key_of_isPartOf hpart]

def groupCensus (groups : List (String × List Endpoint)) : List (String × String × String) :=
  groups.flatMap fun group =>
    (group.2.filter fun e => !isSkipped e).map fun e => (group.1, e.key)

theorem census_collected {groups : List (String × List Endpoint)}
    {calls : List (Nat × String × TagCalls)} (h : List.Forall₂ r.IsCollected groups calls) :
    (calls.flatMap fun entry => entry.2.2.operations.map fun call => (entry.2.1, call.key)).Perm
      (groupCensus groups) := by
  induction h with
  | nil => exact List.Perm.refl _
  | @cons group entry _ _ hg _ ih =>
    obtain ⟨htag, names, names', parts, hparts, ht⟩ := hg
    rw [groupCensus, List.flatMap_cons, List.flatMap_cons, htag, ht]
    have hkeys : (parts.map CallPart.call).map (fun call => (group.1, call.key)) =
        (group.2.filter fun e => !isSkipped e).map fun e => (group.1, e.key) := by
      simpa only [List.map_map, Function.comp_def] using
        congrArg (List.map fun key => (group.1, key)) (keys_tagParts hparts)
    exact (((Text.sortByKey_perm _).map _).trans (List.Perm.of_eq hkeys)).append ih

omit [Text.Transliteration] in
theorem taggedCalls_serviceUnits (calls : List (Nat × String × TagCalls)) :
    ((r.serviceUnits calls).flatMap fun u => u.operations.map fun call => (u.tag, call)) =
      calls.flatMap fun entry => entry.2.2.operations.map fun call => (entry.2.1, call) := by
  induction calls with
  | nil => rfl
  | cons entry rest ih =>
    rw [List.flatMap_cons, ← ih]
    by_cases h : entry.2.2.operations = []
    · simp [serviceUnits, h]
    · simp [serviceUnits, h, serviceUnit]

theorem census_perm (h : r.client = .ok c) : c.census.Perm (groupCensus r.groups) := by
  obtain ⟨calls, interfaces, hcalls, -, hservices, -, -⟩ := client_eq_ok h
  have hcollected := census_collected (forall₂_allCalls hcalls)
  rw [← map_key_taggedCalls, Client.taggedCalls, hservices, taggedCalls_serviceUnits]
  simpa only [List.map_flatMap, List.map_map, Function.comp_def] using hcollected

/-- Calls of a tag that were built for the same operation are the same. -/
theorem nodup_keys_tagParts {tag : String} {used : NameCounts} {names names' : ParamsTypeNames}
    {parts : List CallPart} (h : r.tagParts tag used names
      (r.document.spec.members r.config r.overrides tag) = (.ok parts, names')) :
    ((parts.map CallPart.call).map Call.key).Nodup := by
  rw [keys_tagParts h]
  exact r.document.nodup_keys.sublist
    ((List.filter_sublist.trans List.filter_sublist).map Endpoint.key)

theorem exists_tagParts_of_mem_taggedCalls (h : r.client = .ok c) {tag : String} {call : Call}
    (hcall : (tag, call) ∈ c.taggedCalls) : ∃ names names' parts,
      r.tagParts tag [] names (r.document.spec.members r.config r.overrides tag) =
        (.ok parts, names') ∧ call ∈ parts.map CallPart.call := by
  obtain ⟨u, hu, hcall⟩ := List.mem_flatMap.1 hcall
  obtain ⟨_, hcall, heq⟩ := List.mem_map.1 hcall
  cases heq
  obtain ⟨names, names', parts, hparts, hops⟩ := exists_tagParts_of_mem_services h hu
  rw [hops, (Text.sortByKey_perm _).mem_iff] at hcall
  exact ⟨names, names', parts, hparts, hcall⟩

theorem nodup_groupCensus : (groupCensus r.groups).Nodup := by
  rw [groups, ApiSpec.groups_eq, groupCensus, List.flatMap_map]
  refine List.nodup_flatMap.2 ⟨fun tag _ => ?_, (nodup_distinct _).imp fun {s t} hst => ?_⟩
  · refine List.Nodup.of_map Prod.snd ?_
    rw [List.map_map]
    exact r.document.nodup_keys.sublist
      ((List.filter_sublist.trans List.filter_sublist).map Endpoint.key)
  · simp only [Function.onFun, List.disjoint_left, List.mem_map]
    rintro entry ⟨e, -, rfl⟩ ⟨e', -, he⟩
    exact hst (congrArg Prod.fst he).symm

theorem mem_groupCensus {tag path method : String} :
    (tag, path, method) ∈ groupCensus r.groups ↔
      ∃ e ∈ r.document.spec.endpoints, e.path = path ∧ e.method.text = method ∧
        isSkipped e = false ∧ tag ∈ e.tags r.config r.overrides := by
  simp only [groups, ApiSpec.groups_eq, groupCensus, List.flatMap_map, List.mem_flatMap,
    mem_distinct, List.mem_map, List.mem_filter, ApiSpec.mem_members, Bool.not_eq_true',
    Endpoint.key, Prod.mk.injEq]
  constructor
  · rintro ⟨tag', -, e, ⟨⟨he, htag⟩, hs⟩, rfl, rfl, rfl⟩
    exact ⟨e, he, rfl, rfl, hs, htag⟩
  · rintro ⟨e, he, rfl, rfl, hs, htag⟩
    exact ⟨tag, ⟨e, he, htag⟩, e, ⟨⟨he, htag⟩, hs⟩, rfl, rfl, rfl⟩

omit [Text.Transliteration] in
theorem isSkipped_eq_false {e : Endpoint} :
    isSkipped e = false ↔ ¬ "$\x7b".toList <:+: e.path.toList := by
  rw [isSkipped, ← Text.containsText_iff, Bool.not_eq_true]

theorem map_fst_groups : r.groups.map Prod.fst = distinct r.tagOccurrences := by
  have hocc : distinct r.tagOccurrences =
      distinct (r.document.spec.endpoints.flatMap (Endpoint.tags r.config r.overrides)) :=
    (distinct_flatMap_distinct _ _).symm
  rw [groups, ApiSpec.groups_eq, List.map_map, hocc]
  exact List.map_id _

theorem map_tag_collected {groups : List (String × List Endpoint)}
    {calls : List (Nat × String × TagCalls)} (h : List.Forall₂ r.IsCollected groups calls) :
    calls.map (fun entry => entry.2.1) = groups.map Prod.fst := by
  induction h with
  | nil => rfl
  | cons hg _ ih => rw [List.map_cons, List.map_cons, ih, hg.1]

end Run

end ApiClient

namespace ApiClient.Run

end ApiClient.Run
