import ApiClient.Proofs.VendorMappings

namespace ApiClient.Run

variable [Text.Transliteration] {r : Run}

abbrev Built := (String × Endpoint) × CallPart

/-- The parameter types that come with some parts. -/
def declared (built : List Built) : List Interface :=
  built.filterMap fun b => b.2.paramsType

omit [Text.Transliteration] in
@[simp] theorem declared_append (built more : List Built) :
    declared (built ++ more) = declared built ++ declared more :=
  List.filterMap_append

omit [Text.Transliteration] in
@[simp] theorem declared_singleton (b : Built) : declared [b] = b.2.paramsType.toList := by
  cases h : b.2.paramsType <;> simp [declared, h]

/-- A trace of a run: what is built up to a point, and the parameter types named there. -/
inductive Builds (r : Run) : List Built → ParamsTypeNames → Prop
  | start : Builds r [] .empty
  | step {built : List Built} {names names' : ParamsTypeNames} {tag : String} {e : Endpoint}
      {shape : CallShape} {functionName description : String} {part : CallPart}
      (before : Builds r built names) (member : e ∈ r.document.spec.endpoints)
      (shaped : r.shape e = .ok shape)
      (builds : r.callPart tag e shape functionName description names = (part, names')) :
      Builds r (built ++ [((tag, e), part)]) names'

theorem Builds.tagParts {built : List Built} {tag : String} {used : NameCounts}
    {names names' : ParamsTypeNames} {es : List Endpoint} {parts : List CallPart}
    (h : r.Builds built names) (hes : es ⊆ r.document.spec.endpoints)
    (hparts : r.tagParts tag used names es = (.ok parts, names')) :
    r.Builds (built ++ ((es.filter fun e => !isSkipped e).map fun e => (tag, e)).zip parts)
      names' := by
  induction es generalizing built used names parts with
  | nil =>
    obtain ⟨rfl, rfl⟩ := tagParts_nil hparts
    simpa using h
  | cons e rest ih =>
    obtain ⟨he, hrest⟩ := List.cons_subset.1 hes
    obtain ⟨hs, hmore⟩ |
      ⟨hs, shape, description, part, names₁, more, hshape, -, hpart, hmore, rfl⟩ :=
        tagParts_cons hparts
    · rw [List.filter_cons_of_neg (by simp [hs])]
      exact ih h hrest hmore
    · rw [List.filter_cons_of_pos (by simp [hs]), List.map_cons, List.zip_cons_cons,
        List.append_cons]
      exact ih (h.step he hshape hpart) hrest hmore

/-- What the built parts have in common with the pairs, the calls and the types of a client. -/
structure Accounts (built : List Built) (pairs : List (String × Endpoint))
    (entries : List (Nat × String × TagCalls)) : Prop where
  pairs : built.map Prod.fst = pairs
  calls : (entries.flatMap fun entry => entry.2.2.operations.map fun call =>
    (entry.2.1, call)).Perm (built.map fun b => (b.1.1, b.2.call))
  paramsTypes : (entries.flatMap fun entry => entry.2.2.paramsTypes) = declared built

omit [Text.Transliteration] in
theorem Accounts.nil : Accounts [] [] [] :=
  ⟨rfl, List.Perm.refl _, rfl⟩

omit [Text.Transliteration] in
theorem Accounts.cons {built : List Built} {pairs : List (String × Endpoint)}
    {entries : List (Nat × String × TagCalls)} (h : Accounts built pairs entries) (index : Nat)
    (tag : String) {es : List Endpoint} {parts : List CallPart}
    (hlength : es.length = parts.length) :
    Accounts ((es.map fun e => (tag, e)).zip parts ++ built) ((es.map fun e => (tag, e)) ++ pairs)
      ((index, tag, collectParts parts) :: entries) := by
  have hparts : ((es.map fun e => (tag, e)).zip parts).map Prod.snd = parts :=
    List.map_snd_zip (by simp [hlength])
  constructor
  case pairs => rw [List.map_append, h.pairs, List.map_fst_zip (by simp [hlength])]
  case calls =>
    rw [List.flatMap_cons, List.map_append]
    refine List.Perm.append ?_ h.calls
    have htags : (((es.map fun e => (tag, e)).zip parts).map fun b => (b.1.1, b.2.call)) =
        (parts.map CallPart.call).map fun call => (tag, call) := by
      conv => rhs; rw [← hparts]
      rw [List.map_map, List.map_map]
      refine List.map_congr_left fun b hb => ?_
      obtain ⟨e, -, he⟩ := List.mem_map.1 (List.of_mem_zip hb).1
      simp [← he]
    rw [htags]
    exact (Text.sortByKey_perm _).map _
  case paramsTypes =>
    rw [List.flatMap_cons, declared_append, h.paramsTypes]
    congr 1
    conv => lhs; rw [← hparts]
    exact List.filterMap_map

theorem Builds.allCalls {built : List Built} {index : Nat} {names : ParamsTypeNames}
    {groups : List (String × List Endpoint)} {entries : List (Nat × String × TagCalls)}
    (h : r.Builds built names) (hgroups : ∀ group ∈ groups, group.2 ⊆ r.document.spec.endpoints)
    (hentries : r.allCalls index names groups = .ok entries) :
    ∃ more names', r.Builds (built ++ more) names' ∧ Accounts more (groupPairs groups) entries := by
  induction groups generalizing built index names entries with
  | nil =>
    cases hentries
    exact ⟨[], names, by simpa using h, .nil⟩
  | cons group rest ih =>
    obtain ⟨tag, es⟩ := group
    obtain ⟨hes, hrest⟩ := List.forall_mem_cons.1 hgroups
    obtain ⟨parts, names₁, later, hparts, hlater, rfl⟩ := allCalls_cons hentries
    obtain ⟨more, names', hmore, haccounts⟩ := ih (h.tagParts hes hparts) hrest hlater
    exact ⟨_, names', by rwa [← List.append_assoc],
      haccounts.cons index tag (forall₂_tagParts hparts).length_eq⟩

/-- The trace of a successful run. It ends with one part for every pair that has a call; the calls
of the client are those of the parts, and its named types are those of the component schemas and of
the parts, by name. -/
theorem exists_builds {c : Client} (h : r.client = .ok c) : ∃ built names named,
    r.Builds built names ∧ r.document.interfaces r.typing r.config.enumStyle = .ok named ∧
    built.map Prod.fst = r.emittedPairs ∧
    c.taggedCalls.Perm (built.map fun b => (b.1.1, b.2.call)) ∧
    c.interfaces = Text.sortByKey Interface.typeName (named ++ declared built) := by
  obtain ⟨entries, named, hentries, hnamed, hservices, hinterfaces, -⟩ := client_eq_ok h
  have hgroups : ∀ group ∈ r.groups, group.2 ⊆ r.document.spec.endpoints := by
    intro group hgroup
    rw [groups_spec hgroup]
    exact List.filter_subset_self _
  obtain ⟨built, names, hbuilds, haccounts⟩ := Builds.start.allCalls hgroups hentries
  refine ⟨built, names, named, hbuilds, hnamed, ?_, ?_, ?_⟩
  · rw [haccounts.pairs, groupPairs_groups]
  · rw [Client.taggedCalls, hservices, taggedCalls_serviceUnits]
    exact haccounts.calls
  · rw [hinterfaces, haccounts.paramsTypes]

end ApiClient.Run
