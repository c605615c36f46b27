import ApiClient.Proofs.Census

namespace ApiClient

namespace Path

/-- A path that is the literal itself, or goes on behind it with segments of its own. -/
def LiesUnder (literal path : String) : Prop :=
  path = literal ∨ literal.toList ++ ['/'] <+: path.toList

instance (literal path : String) : Decidable (LiesUnder literal path) :=
  inferInstanceAs (Decidable (_ ∨ _))

/-- A path that starts with the text of a literal, or with a slash and that text. -/
def Carries (literal path : String) : Prop :=
  literal.toList <+: path.toList ∨ '/' :: literal.toList <+: path.toList

instance (literal path : String) : Decidable (Carries literal path) :=
  inferInstanceAs (Decidable (_ ∨ _))

/-- A path that goes on within the last segment of the literal, or starts with a slash too many. -/
def Strays (literal path : String) : Prop :=
  (∃ c rest, c ≠ '/' ∧ path.toList = literal.toList ++ c :: rest) ∨
    '/' :: literal.toList <+: path.toList

section Literals

variable {literal path : String}

theorem prependLiteral_of_carries (h : Carries literal path) :
    prependLiteral literal path = path := by
  rw [prependLiteral, if_pos]
  rw [Bool.or_eq_true, Text.startsWith, Text.startsWith, List.isPrefixOf_iff_prefix,
    List.isPrefixOf_iff_prefix, String.toList_append]
  exact h

theorem prependLiteral_of_not_carries (h : ¬ Carries literal path) :
    prependLiteral literal path = literal ++ path := by
  rw [prependLiteral, if_neg]
  rw [Bool.or_eq_true, Text.startsWith, Text.startsWith, List.isPrefixOf_iff_prefix,
    List.isPrefixOf_iff_prefix, String.toList_append]
  exact h

theorem Strays.carries (h : Strays literal path) : Carries literal path := by
  obtain ⟨c, rest, -, hpath⟩ | hslash := h
  · exact .inl ⟨c :: rest, hpath.symm⟩
  · exact .inr hslash

theorem not_shifted_prefix (hend : literal.toList.getLast? ≠ some '/') (hne : literal ≠ "")
    (h : literal.toList ++ ['/'] <+: path.toList) : ¬ '/' :: literal.toList <+: path.toList := by
  intro hshifted
  have hsame : literal.toList ++ ['/'] = '/' :: literal.toList :=
    (List.prefix_of_prefix_length_le h hshifted (by simp)).eq_of_length (by simp)
  obtain ⟨init, last, hliteral⟩ := (List.eq_nil_or_concat' literal.toList).resolve_left fun hnil =>
    hne (String.toList_injective hnil)
  rw [hliteral, List.getLast?_concat] at hend
  have hlast := congrArg List.getLast? hsame
  rw [hliteral, ← List.cons_append, List.getLast?_concat, List.getLast?_concat] at hlast
  exact hend hlast.symm

theorem liesUnder_iff_of_carries (hend : literal.toList.getLast? ≠ some '/') (hne : literal ≠ "")
    (h : Carries literal path) : LiesUnder literal path ↔ ¬ Strays literal path := by
  constructor
  · rintro (rfl | hunder) (⟨c, rest, hc, hpath⟩ | hslash)
    · simpa using congrArg List.length hpath
    · have hlength := hslash.length_le
      rw [List.length_cons] at hlength
      omega
    · rw [hpath, List.prefix_append_right_inj, List.cons_prefix_cons] at hunder
      exact hc hunder.1.symm
    · exact not_shifted_prefix hend hne hunder hslash
  · intro hstrays
    obtain ⟨rest, hrest⟩ | hslash := h
    · cases rest with
      | nil => exact .inl (String.toList_injective (by simpa using hrest.symm))
      | cons c rest =>
        obtain rfl : c = '/' := by
          by_contra hc
          exact hstrays (.inl ⟨c, rest, hc, hrest.symm⟩)
        exact .inr ⟨rest, by rw [← hrest, List.append_assoc, List.singleton_append]⟩
    · exact absurd (.inr hslash) hstrays

theorem liesUnder_append (hslash : path.toList.head? = some '/') :
    LiesUnder literal (literal ++ path) := by
  obtain ⟨rest, hpath⟩ := List.head?_eq_some_iff.1 hslash
  exact .inr ⟨rest, by simp [hpath]⟩

theorem prependLiteral_eq_self_iff (hne : literal ≠ "") :
    prependLiteral literal path = path ↔ Carries literal path := by
  refine ⟨fun h => ?_, prependLiteral_of_carries⟩
  by_contra hnot
  exact hne (String.append_eq_right_iff.1 ((prependLiteral_of_not_carries hnot).symm.trans h))

theorem prependLiteral_eq_append_iff (hne : literal ≠ "") :
    prependLiteral literal path = literal ++ path ↔ ¬ Carries literal path := by
  refine ⟨fun h hcarries => ?_, prependLiteral_of_not_carries⟩
  exact hne (String.append_eq_right_iff.1 (h.symm.trans (prependLiteral_of_carries hcarries)))

theorem liesUnder_prependLiteral_iff (hend : literal.toList.getLast? ≠ some '/')
    (hne : literal ≠ "") (hslash : path.toList.head? = some '/') :
    LiesUnder literal (prependLiteral literal path) ↔ ¬ Strays literal path := by
  by_cases h : Carries literal path
  · rw [prependLiteral_of_carries h]
    exact liesUnder_iff_of_carries hend hne h
  · rw [prependLiteral_of_not_carries h]
    exact iff_of_true (liesUnder_append hslash) fun hstrays => h hstrays.carries

end Literals

end Path

def Config.prefixLiteral? (c : Config) : Option String :=
  c.literalApiPrefix?.map fun text => (unquote? text).getD text

namespace Run

variable [Text.Transliteration] {r : Run}

/-- The path of a call before prefixing: the vendor's, or that of the endpoint with aliases. -/
def unprefixedPath (e : Endpoint) (call : Call) : String :=
  (vendorPath? e.operation.vendorBundle?).getD (aliasedPath e call.params)

theorem prefixed_callPart (hnone : r.overrides = .none) {literal : String}
    (hliteral : r.config.prefixLiteral? = some literal) (tag : String) (e : Endpoint)
    (s : CallShape) (functionName description : String) (names : ParamsTypeNames) :
    let call := (r.callPart tag e s functionName description names).1.call
    call.path = prependLiteral literal (unprefixedPath e call) ∧ call.hasApiPrefix = true := by
  obtain ⟨text, htext, rfl⟩ := Option.map_eq_some_iff.1 hliteral
  have hanswer (context : PrefixContext) : nonBlank (Overrides.none.apiPrefix context) = none := rfl
  simp only [callPart, unprefixedPath, hnone, applyPrefix, hanswer, htext, and_self]

/-- A call whose path before prefixing starts with a slash comes to lie under the prefix, unless
that path strays: it starts with the text of the prefix, where the prefix is left out, and goes on
within its last segment, or it has a slash in front of that text. -/
theorem path_liesUnder_iff (r : Run) (c : Client) (hnone : r.overrides = .none)
    (h : r.client = .ok c) (literal : String) (hliteral : r.config.prefixLiteral? = some literal)
    (hstart : literal.toList.head? = some '/') (hend : literal.toList.getLast? ≠ some '/')
    (u : ServiceUnit) (hu : u ∈ c.services) (call : Call) (hcall : call ∈ u.operations)
    (e : Endpoint) (he : e ∈ r.document.spec.endpoints) (hkey : call.key = e.key)
    (hslash : (unprefixedPath e call).toList.head? = some '/') :
    call.hasApiPrefix = true ∧
    (call.path = unprefixedPath e call ↔ Path.Carries literal (unprefixedPath e call)) ∧
    (call.path = literal ++ unprefixedPath e call ↔
      ¬ Path.Carries literal (unprefixedPath e call)) ∧
    (Path.LiesUnder literal call.path ↔ ¬ Path.Strays literal (unprefixedPath e call)) := by
  obtain ⟨e', he', -, part, hpart, rfl⟩ := exists_isPartOf h hu hcall
  obtain rfl : e' = e := Document.endpoint_eq_of_key (ApiSpec.mem_members.1 he').1 he
    ((key_of_isPartOf hpart).symm.trans hkey)
  obtain ⟨used, names, shape, description, -, -, rfl⟩ := hpart
  obtain ⟨hpath, hprefixed⟩ := prefixed_callPart hnone hliteral u.tag e' shape
    (used.take (r.functionName e')).1 description names
  have hne : literal ≠ "" := by
    rintro rfl
    cases hstart
  rw [hpath]
  exact ⟨hprefixed, Path.prependLiteral_eq_self_iff hne, Path.prependLiteral_eq_append_iff hne,
    Path.liesUnder_prependLiteral_iff hend hne hslash⟩

end Run

end ApiClient

namespace ApiClient.Run

def pathTree (path : String) : Json :=
  documentTree [(path, .object [("get", operationTree "list" ["pet"] [])])] []

def apiConfig : Config :=
  { Config.default with apiPrefix := some "'/api'" }

theorem exists_only_call {r : Run} {c : Client} {key : String × String} {path plain : String}
    (hcalls : (c.services.flatMap fun u => u.operations.map fun call =>
      (call.key, call.path, r.document.spec.endpoints.map (unprefixedPath · call))) =
        [(key, path, [plain])])
    (hkeys : r.document.spec.endpoints.map Endpoint.key = [key]) :
    ∃ u ∈ c.services, ∃ call ∈ u.operations, ∃ e ∈ r.document.spec.endpoints,
      call.key = e.key ∧ call.path = path ∧ unprefixedPath e call = plain := by
  obtain ⟨u, hu, call, hcall, heq⟩ := exists_call_of_mem (hcalls ▸ List.mem_singleton_self _)
  simp only [Prod.mk.injEq] at heq
  obtain ⟨hkey, hpath, hplain⟩ := heq
  obtain ⟨e, he, hplain⟩ := List.mem_map.1 (hplain ▸ List.mem_singleton_self plain)
  have hekey : e.key = key := List.mem_singleton.1 (hkeys ▸ List.mem_map_of_mem he)
  exact ⟨u, hu, call, hcall, e, he, hkey.trans hekey.symm, hpath, hplain⟩

def prefixedRun : Run :=
  .ofTree apiConfig (pathTree "/pets/{id}") (by decide +kernel)

theorem prefixedRun_liesUnder : ∃ c u call, prefixedRun.client = .ok c ∧ u ∈ c.services ∧
    call ∈ u.operations ∧ prefixedRun.config.prefixLiteral? = some "/api" ∧
    call.path = "/api/pets/$\x7bparam0\x7d" ∧ Path.LiesUnder "/api" call.path := by
  obtain ⟨c, hc, hcalls⟩ : ∃ c, prefixedRun.client = .ok c ∧
      (c.services.flatMap fun u => u.operations.map fun call =>
        (call.key, call.path, prefixedRun.document.spec.endpoints.map (unprefixedPath · call))) =
        [(("/pets/{id}", "get"), "/api/pets/$\x7bparam0\x7d", ["/pets/$\x7bparam0\x7d"])] :=
    exists_ok_of_map (by decide +kernel)
  obtain ⟨u, hu, call, hcall, e, he, hkey, hpath, hplain⟩ :=
    exists_only_call hcalls (by decide +kernel)
  have hliteral : prefixedRun.config.prefixLiteral? = some "/api" := by decide +kernel
  obtain ⟨-, -, -, hunder⟩ := path_liesUnder_iff prefixedRun c rfl hc "/api" hliteral (by decide)
    (by decide) u hu call hcall e he hkey (by rw [hplain]; decide)
  refine ⟨c, u, call, hc, hu, hcall, hliteral, hpath, hunder.2 fun hstrays => ?_⟩
  rw [hplain] at hstrays
  exact absurd hstrays.carries (by decide)

def strayingRun : Run :=
  .ofTree apiConfig (pathTree "/apiary") (by decide +kernel)

theorem not_path_liesUnder : ¬ ∀ (r : Run) (c : Client), r.overrides = .none → r.client = .ok c →
    ∀ literal, r.config.prefixLiteral? = some literal → literal.toList.head? = some '/' →
    literal.toList.getLast? ≠ some '/' → ∀ u ∈ c.services, ∀ call ∈ u.operations,
    ∀ e ∈ r.document.spec.endpoints, call.key = e.key →
      (unprefixedPath e call).toList.head? = some '/' → Path.LiesUnder literal call.path := by
  intro liesUnder
  obtain ⟨c, hc, hcalls⟩ : ∃ c, strayingRun.client = .ok c ∧
      (c.services.flatMap fun u => u.operations.map fun call =>
        (call.key, call.path, strayingRun.document.spec.endpoints.map (unprefixedPath · call))) =
        [(("/apiary", "get"), "/apiary", ["/apiary"])] :=
    exists_ok_of_map (by decide +kernel)
  obtain ⟨u, hu, call, hcall, e, he, hkey, hpath, hplain⟩ :=
    exists_only_call hcalls (by decide +kernel)
  have hliteral : strayingRun.config.prefixLiteral? = some "/api" := by decide +kernel
  have hunder := liesUnder strayingRun c rfl hc "/api" hliteral (by decide) (by decide) u hu call
    hcall e he hkey (by rw [hplain]; decide)
  rw [hpath] at hunder
  revert hunder
  decide

end ApiClient.Run
