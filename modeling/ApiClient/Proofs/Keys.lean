import ApiClient.Document.Reader
import Mathlib.Data.List.Nodup

namespace ApiClient

section Maps

variable {α : Type}

theorem keys_insertEntry (key : String) (value : α) (entries : List (String × α)) :
    (insertEntry key value entries).map Prod.fst =
      if key ∈ entries.map Prod.fst then entries.map Prod.fst
      else entries.map Prod.fst ++ [key] := by
  induction entries with
  | nil => rfl
  | cons entry rest ih =>
    obtain ⟨k, v⟩ := entry
    by_cases h : k = key
    · simp [insertEntry, h]
    · have hk : key ≠ k := fun he => h he.symm
      simp only [insertEntry, h, if_false, List.map_cons, ih, List.mem_cons, hk, false_or]
      split <;> rfl

theorem lookup_insertEntry (key k : String) (value : α) (entries : List (String × α)) :
    (insertEntry key value entries).lookup k =
      if k = key then some value else entries.lookup k := by
  induction entries with
  | nil =>
    rw [insertEntry, List.lookup_cons]
    by_cases hk : k = key
    · simp [hk]
    · simp [hk, beq_false_of_ne hk]
  | cons entry rest ih =>
    obtain ⟨n, v⟩ := entry
    rw [insertEntry]
    by_cases hn : n = key
    · subst hn
      rw [if_pos rfl, List.lookup_cons, List.lookup_cons]
      by_cases hk : k = n
      · simp [hk]
      · simp [hk, beq_false_of_ne hk]
    · rw [if_neg hn, List.lookup_cons, List.lookup_cons, ih]
      by_cases hk : k = n
      · simp [hk, hn]
      · simp [beq_false_of_ne hk]

theorem insertEntry_insertEntry (key : String) (value value' : α) (entries : List (String × α)) :
    insertEntry key value' (insertEntry key value entries) = insertEntry key value' entries := by
  induction entries with
  | nil => simp [insertEntry]
  | cons entry rest ih =>
    obtain ⟨k, u⟩ := entry
    simp only [insertEntry]
    split
    · next hk => simp [insertEntry, hk]
    · next hk => simp [insertEntry, hk, ih]

theorem insertEntry_of_lookup {key : String} {value : α} {entries : List (String × α)}
    (h : entries.lookup key = some value) : insertEntry key value entries = entries := by
  induction entries with
  | nil => cases h
  | cons entry rest ih =>
    obtain ⟨k, v⟩ := entry
    rw [insertEntry]
    split
    · next hk =>
      rw [hk, List.lookup_cons_self] at h
      cases h
      rfl
    · next hk =>
      rw [List.lookup_cons, beq_false_of_ne (Ne.symm hk)] at h
      rw [ih h]

theorem nodup_keys_insertEntry {key : String} {value : α} {entries : List (String × α)}
    (h : (entries.map Prod.fst).Nodup) :
    ((insertEntry key value entries).map Prod.fst).Nodup := by
  rw [keys_insertEntry]
  split
  · exact h
  · next hk => exact List.Nodup.append h (List.nodup_singleton key) (by simpa using hk)

theorem nodup_keys_mapOfEntries (entries : List (String × α)) :
    ((mapOfEntries entries).map Prod.fst).Nodup := by
  have inserted : ∀ (rest map : List (String × α)), (map.map Prod.fst).Nodup →
      ((rest.foldl (fun map entry => insertEntry entry.1 entry.2 map) map).map Prod.fst).Nodup := by
    intro rest
    induction rest with
    | nil => exact fun map h => h
    | cons entry rest ih => exact fun map h => ih _ (nodup_keys_insertEntry h)
  exact inserted entries [] List.nodup_nil

theorem insertEntry_of_notMem {key : String} {value : α} {entries : List (String × α)}
    (h : key ∉ entries.map Prod.fst) :
    insertEntry key value entries = entries ++ [(key, value)] := by
  induction entries with
  | nil => rfl
  | cons entry rest ih =>
    rw [List.map_cons, List.mem_cons, not_or] at h
    rw [insertEntry, if_neg fun he => h.1 he.symm, ih h.2, List.cons_append]

theorem mem_insertEntry {key : String} {value : α} {entries : List (String × α)}
    {entry : String × α} (h : entry ∈ insertEntry key value entries) :
    entry = (key, value) ∨ entry ∈ entries := by
  induction entries with
  | nil => exact .inl (List.mem_singleton.1 h)
  | cons first rest ih =>
    rw [insertEntry] at h
    split at h
    · obtain rfl | hrest := List.mem_cons.1 h
      · next hkey => exact .inl (by rw [← hkey])
      · exact .inr (List.mem_cons_of_mem _ hrest)
    · obtain rfl | hrest := List.mem_cons.1 h
      · exact .inr List.mem_cons_self
      · exact (ih hrest).imp_right (List.mem_cons_of_mem _)

theorem mem_of_mem_mapOfEntries {entries : List (String × α)} {entry : String × α}
    (h : entry ∈ mapOfEntries entries) : entry ∈ entries := by
  have inserted : ∀ (rest map : List (String × α)),
      entry ∈ rest.foldl (fun map e => insertEntry e.1 e.2 map) map →
        entry ∈ map ∨ entry ∈ rest := by
    intro rest
    induction rest with
    | nil => exact fun map h => .inl h
    | cons first rest ih =>
      intro map h
      obtain hmap | hrest := ih _ h
      · obtain rfl | hmap := mem_insertEntry hmap
        · exact .inr List.mem_cons_self
        · exact .inl hmap
      · exact .inr (List.mem_cons_of_mem _ hrest)
  exact (inserted entries [] h).resolve_left (List.not_mem_nil)

theorem mapOfEntries_eq_self {entries : List (String × α)} (h : (entries.map Prod.fst).Nodup) :
    mapOfEntries entries = entries := by
  have inserted : ∀ (rest map : List (String × α)), ((map ++ rest).map Prod.fst).Nodup →
      rest.foldl (fun map e => insertEntry e.1 e.2 map) map = map ++ rest := by
    intro rest
    induction rest with
    | nil => exact fun map _ => (List.append_nil map).symm
    | cons first rest ih =>
      intro map h
      have hfirst : first.1 ∉ map.map Prod.fst := by
        rw [List.map_append, List.map_cons, List.nodup_append] at h
        intro hmem
        exact h.2.2 _ hmem _ List.mem_cons_self rfl
      rw [List.foldl_cons, insertEntry_of_notMem hfirst, ih, List.append_assoc]
      · rfl
      · rwa [List.append_assoc]
  exact inserted entries [] h

theorem mem_of_lookup {key : String} {value : α} {entries : List (String × α)}
    (h : entries.lookup key = some value) : (key, value) ∈ entries := by
  obtain ⟨before, after, rfl, -⟩ := List.lookup_eq_some_iff.1 h
  exact List.mem_append_right _ List.mem_cons_self

theorem lookup_cons_of_ne {key k : String} (h : key ≠ k) (value : α)
    (rest : List (String × α)) : ((k, value) :: rest).lookup key = rest.lookup key := by
  rw [List.lookup_cons, beq_false_of_ne h]

theorem lookup_filter_notContains {key : String} {keys : List String} (h : key ∉ keys)
    (entries : List (String × α)) :
    (entries.filter fun entry => !keys.contains entry.1).lookup key = entries.lookup key := by
  induction entries with
  | nil => rfl
  | cons entry rest ih =>
    obtain ⟨k, value⟩ := entry
    by_cases hk : key = k
    · rw [List.filter_cons_of_pos (by simpa [← hk] using h), hk, List.lookup_cons_self,
        List.lookup_cons_self]
    · rw [lookup_cons_of_ne hk, ← ih, List.filter_cons]
      split
      · exact lookup_cons_of_ne hk _ _
      · rfl

namespace Json

theorem nodup_keys_mapOf? {read : Json → Option α} {v : Json} {map : List (String × α)}
    (h : mapOf? read v = some map) : (map.map Prod.fst).Nodup := by
  cases v with
  | object entries =>
    obtain ⟨items, -, rfl⟩ := Option.map_eq_some_iff.1 h
    exact nodup_keys_mapOfEntries items
  | _ => simp [mapOf?] at h

theorem nodup_keys_orDefault? {read : Json → Option α} {field : Option Json}
    {map : List (String × α)} (h : orDefault? [] (mapOf? read) field = some map) :
    (map.map Prod.fst).Nodup := by
  cases field with
  | none =>
    cases h
    exact List.nodup_nil
  | some v => exact nodup_keys_mapOf? h

end Json

end Maps

theorem ApiSpec.nodup_paths_of_ofJson? {v : Json} {spec : ApiSpec}
    (h : ApiSpec.ofJson? v = some spec) : (spec.paths.map Prod.fst).Nodup := by
  simp only [ApiSpec.ofJson?, Option.bind_eq_bind, Option.bind_eq_some_iff] at h
  obtain ⟨field, -, openapi, -, swagger, -, info, -, paths, hp, components, -, hs⟩ := h
  cases hs
  exact Json.nodup_keys_orDefault? hp

theorem Document.nodup_paths (d : Document) : (d.spec.paths.map Prod.fst).Nodup :=
  ApiSpec.nodup_paths_of_ofJson? d.reads

theorem HttpMethod.text_injective : Function.Injective HttpMethod.text := by
  intro m n h
  cases m <;> cases n <;> first | rfl | exact absurd h (by decide)

/-- What an endpoint is found by: its path and the text of its method. -/
def Endpoint.key (e : Endpoint) : String × String :=
  (e.path, e.method.text)

theorem ApiSpec.mem_endpoints {spec : ApiSpec} {e : Endpoint} :
    e ∈ spec.endpoints ↔ ∃ item, (e.path, item) ∈ spec.paths ∧
      item.operation? e.method = some e.operation ∧ e.pathParameters = item.parameters := by
  simp only [ApiSpec.endpoints, PathItem.operations, List.mem_flatMap, List.mem_map,
    List.mem_filterMap, Option.map_eq_some_iff, Prod.exists, Prod.mk.injEq]
  constructor
  · rintro ⟨path, item, hp, method, o, ⟨m, -, o', ho, rfl, rfl⟩, rfl⟩
    exact ⟨item, hp, ho, rfl⟩
  · rintro ⟨item, hp, ho, hparams⟩
    refine ⟨e.path, item, hp, e.method, e.operation, ⟨e.method, ?_, _, ho, rfl, rfl⟩, ?_⟩
    · cases e.method <;> decide
    · rw [← hparams]

theorem Document.nodup_keys (d : Document) : (d.spec.endpoints.map Endpoint.key).Nodup := by
  rw [ApiSpec.endpoints, List.map_flatMap]
  refine List.nodup_flatMap.2 ⟨fun (path, item) _ => ?_, ?_⟩
  · simp only [PathItem.operations, List.map_filterMap]
    refine List.Nodup.filterMap ?_ (by decide)
    intro m n key hm hn
    simp only [Option.map_map, Option.mem_def, Option.map_eq_some_iff] at hm hn
    obtain ⟨o, -, rfl⟩ := hm
    obtain ⟨o', -, hk⟩ := hn
    exact HttpMethod.text_injective (congrArg Prod.snd hk).symm
  · refine (List.pairwise_map.1 d.nodup_paths).imp fun {a b} hab => ?_
    simp only [Function.onFun, List.disjoint_left, List.mem_map]
    rintro key ⟨e, ⟨x, -, rfl⟩, rfl⟩ ⟨e', ⟨y, -, rfl⟩, hk⟩
    exact hab (congrArg Prod.fst hk).symm

/-- A description's endpoint is determined by its path and its method. -/
theorem Document.endpoint_eq_of_key {d : Document} {e e' : Endpoint}
    (he : e ∈ d.spec.endpoints) (he' : e' ∈ d.spec.endpoints) (h : e.key = e'.key) : e = e' :=
  List.inj_on_of_nodup_map d.nodup_keys he he' h

end ApiClient
