import ApiClient.Proofs.Census
import ApiClient.Proofs.Placeholders
import Mathlib

namespace ApiClient

namespace Path

open Text

section Aliases

theorem aliasAt_injective : Function.Injective aliasAt := by
  intro i j h
  apply Nat.repr_injective
  apply String.toList_injective
  simpa [aliasAt] using congrArg String.toList h

theorem isAlphanum_aliasAt (i : Nat) : ∀ c ∈ (aliasAt i).toList, c.isAlphanum = true := by
  intro c hc
  rw [aliasAt, String.toList_append, List.mem_append] at hc
  obtain hc | hc := hc
  · have hparam : "param".toList.all Char.isAlphanum = true := by decide
    exact List.all_eq_true.1 hparam c hc
  · simp [Char.isAlphanum, isDigit_of_mem_toString hc]

/-- What the name of a token becomes when the parameters from position `i` on are taken in turn. -/
def renamed (i : Nat) : List String → String → String
  | [], n => n
  | name :: rest, n => renamed (i + 1) rest (if n = name then aliasAt i else n)

theorem renamed_of_notMem {i : Nat} {names : List String} {n : String} (h : n ∉ names) :
    renamed i names n = n := by
  induction names generalizing i with
  | nil => rfl
  | cons name names ih =>
    rw [List.mem_cons, not_or] at h
    rw [renamed, if_neg h.1, ih h.2]

theorem exists_renamed_of_mem {i : Nat} {names : List String} {n : String} (h : n ∈ names) :
    ∃ m, i ≤ m ∧ renamed i names n = aliasAt m := by
  induction names generalizing i n with
  | nil => cases h
  | cons name names ih =>
    rw [renamed]
    by_cases hn : n = name
    · rw [if_pos hn]
      by_cases hlater : aliasAt i ∈ names
      · obtain ⟨m, hm, heq⟩ := ih (i := i + 1) hlater
        exact ⟨m, by omega, heq⟩
      · exact ⟨i, Nat.le_refl i, renamed_of_notMem hlater⟩
    · rw [if_neg hn]
      obtain ⟨m, hm, heq⟩ := ih (i := i + 1) ((List.mem_cons.1 h).resolve_left hn)
      exact ⟨m, by omega, heq⟩

theorem renamed_eq_iff {i : Nat} {names : List String} {n : String} (h : n ∈ names) :
    renamed i names n = aliasAt (i + names.idxOf n) ↔
      aliasAt (i + names.idxOf n) ∉ names.drop (names.idxOf n + 1) := by
  induction names generalizing i with
  | nil => cases h
  | cons name names ih =>
    rw [renamed]
    by_cases hn : n = name
    · subst hn
      rw [if_pos rfl, List.idxOf_cons_self, Nat.add_zero, Nat.zero_add, List.drop_one,
        List.tail_cons]
      constructor
      · intro heq hlater
        obtain ⟨m, hm, hrenamed⟩ := exists_renamed_of_mem (i := i + 1) hlater
        have hmi := aliasAt_injective (hrenamed.symm.trans heq)
        omega
      · exact renamed_of_notMem
    · have hmem := (List.mem_cons.1 h).resolve_left hn
      have hpos : i + (names.idxOf n + 1) = i + 1 + names.idxOf n := by omega
      rw [if_neg hn, List.idxOf_cons_ne _ (fun he => hn he.symm), List.drop_succ_cons, hpos]
      exact ih hmem

end Aliases

/-- The variable that a token reads: the alias of the first parameter of its name. -/
def variableOf (names : List String) (name : String) : String :=
  aliasAt (names.idxOf name)

/-- The path in which every token is written as the variable that it reads. -/
def boundPath (names : List String) (path : String) : String :=
  String.ofList (written (variableOf names) (pieces path.toList))

section Pointing

theorem pointAtAliases_append (path : String) (before after : List Param) :
    pointAtAliases path (before ++ after) = pointAtAliases (pointAtAliases path before) after := by
  induction before generalizing path with
  | nil => rfl
  | cons p before ih => exact ih _

/-- No token reads a variable that a parameter behind its own is named like. -/
def AliasesApart (names : List String) (path : String) : Prop :=
  ∀ name ∈ tokenNames path, variableOf names name ∉ names.drop (names.idxOf name + 1)

instance (names : List String) (path : String) : Decidable (AliasesApart names path) :=
  inferInstanceAs (Decidable (∀ name ∈ tokenNames path, _))

/-- The parameters whose names have a closing brace do not find their placeholders when their turn
comes. -/
def BracesApart (path : String) (params : List Param) : Prop :=
  ∀ before p after, params = before ++ p :: after → '}' ∈ p.name.toList →
    ¬ placeholder p.name.toList <:+: (pointAtAliases path before).toList

theorem BracesApart.tail {path : String} {p : Param} {rest : List Param}
    (h : BracesApart path (p :: rest)) : BracesApart (pointAtAliases path [p]) rest :=
  fun before q after heq hq => h (p :: before) q after (by rw [heq]; rfl) hq

theorem brace_notMem_aliasAt (i : Nat) : '}' ∉ (aliasAt i).toList := by
  intro h
  exact absurd (isAlphanum_aliasAt i _ h) (by decide)

theorem IsTemplate.rename {f : String → String} {ps : List Piece} (h : IsTemplate f ps)
    (name : String) (i : Nat) : IsTemplate (fun n => if f n = name then aliasAt i else f n) ps where
  chars := h.chars
  braces n hn := by
    split
    · exact brace_notMem_aliasAt i
    · exact h.braces n hn
  openings n hn := by
    split
    · intro hopen
      have hdollar : '$' ∈ (aliasAt i).toList := hopen.subset (by simp)
      exact absurd (isAlphanum_aliasAt i _ hdollar) (by decide)
    · exact h.openings n hn

theorem pointAtAliases_singleton {f : String → String} {ps : List Piece} (hps : IsTemplate f ps)
    {p : Param} {i : Nat} (halias : p.aliasName = some (aliasAt i))
    (hapart : '}' ∈ p.name.toList → ¬ placeholder p.name.toList <:+: written f ps) :
    pointAtAliases (String.ofList (written f ps)) [p] =
      String.ofList (written (fun n => if f n = p.name then aliasAt i else f n) ps) := by
  rw [pointAtAliases, pointAtAliases, halias, replaceText]
  simp only [Option.getD_some, String.toList_ofList]
  congr 1
  by_cases hbrace : '}' ∈ p.name.toList
  · rw [replaceMark_of_absent (hapart hbrace)]
    apply written_congr
    intro n hn
    have hne : f (String.ofList n) ≠ p.name := fun heq => hps.braces n hn (heq ▸ hbrace)
    rw [if_neg hne]
  · exact replaceMark_written hps (aliasAt i) hbrace

theorem pointAtAliases_written {f : String → String} {ps : List Piece} (hps : IsTemplate f ps)
    {i : Nat} {params : List Param}
    (hapart : BracesApart (String.ofList (written f ps)) (withAliases i params)) :
    pointAtAliases (String.ofList (written f ps)) (withAliases i params) =
      String.ofList (written (fun n => renamed i (params.map Param.name) (f n)) ps) := by
  -- `f` is what the earlier parameters have made of the names
  induction params generalizing i f with
  | nil => rfl
  | cons p rest ih =>
    have hturn := pointAtAliases_singleton hps (p := { p with aliasName := some (aliasAt i) }) rfl
      fun hbrace => by simpa [pointAtAliases] using hapart [] _ _ rfl hbrace
    have htail := hapart.tail
    rw [hturn] at htail
    rw [withAliases, ← List.singleton_append, pointAtAliases_append, hturn,
      ih (hps.rename p.name i) htail]
    rfl

theorem count_pointAtAliases_le {params : List Param}
    (h : ∀ p ∈ params, '}' ∉ (p.aliasName.getD "").toList) (path : String) :
    (pointAtAliases path params).toList.count '}' ≤ path.toList.count '}' := by
  induction params generalizing path with
  | nil => exact Nat.le_refl _
  | cons p rest ih =>
    obtain ⟨hp, hrest⟩ := List.forall_mem_cons.1 h
    refine (ih hrest _).trans ?_
    rw [replaceText, String.toList_ofList, String.toList_ofList, String.toList_ofList]
    apply count_replaceMark_le
    · simp [placeholder]
    · simp [placeholder, List.count_eq_zero.2 hp]

theorem bracesApart_of_count {params : List Param}
    (h : ∀ p ∈ params, '}' ∉ (p.aliasName.getD "").toList) {path : String}
    (hcount : path.toList.count '}' ≤ (pointAtAliases path params).toList.count '}') :
    BracesApart path params := by
  -- aliases bring no brace back, so the count would have gone down for good
  rintro before p after rfl hbrace hin
  rw [List.forall_mem_append, List.forall_mem_cons] at h
  obtain ⟨hbefore, hp, hafter⟩ := h
  have hle := count_pointAtAliases_le hbefore path
  have hle' := count_pointAtAliases_le hafter (pointAtAliases (pointAtAliases path before) [p])
  have hlt : (pointAtAliases (pointAtAliases path before) [p]).toList.count '}' <
      (pointAtAliases path before).toList.count '}' := by
    rw [pointAtAliases, pointAtAliases, replaceText, String.toList_ofList, String.toList_ofList,
      String.toList_ofList]
    apply count_replaceMark_lt _ hin
    have hpos := List.count_pos_iff.2 hbrace
    simpa [placeholder, List.count_eq_zero.2 hp] using hpos
  rw [← List.singleton_append, pointAtAliases_append, pointAtAliases_append] at hcount
  omega

theorem map_name_withAliases (i : Nat) (params : List Param) :
    (withAliases i params).map Param.name = params.map Param.name := by
  induction params generalizing i with
  | nil => rfl
  | cons p rest ih => rw [withAliases, List.map_cons, List.map_cons, ih]

theorem aliasName_withAliases {i j : Nat} {params : List Param} {p : Param}
    (h : (withAliases i params)[j]? = some p) : p.aliasName = some (aliasAt (i + j)) := by
  induction params generalizing i j with
  | nil => simp [withAliases] at h
  | cons q rest ih =>
    cases j with
    | zero =>
      cases h
      rfl
    | succ j =>
      have hp := ih (i := i + 1) h
      rwa [Nat.add_right_comm] at hp

end Pointing

section Bound

variable {path : String} {params : List Param}

theorem bracesApart_of_eq (hopen : ¬ "$\x7b".toList <:+: path.toList)
    (h : pointAtAliases (template path) (withAliases 0 params) =
      boundPath (params.map Param.name) path) :
    BracesApart (template path) (withAliases 0 params) := by
  apply bracesApart_of_count
  · intro p hp
    obtain ⟨i, hi⟩ := List.mem_iff_getElem?.1 hp
    rw [aliasName_withAliases hi]
    exact brace_notMem_aliasAt _
  · rw [h, template_eq_written, boundPath, String.toList_ofList, String.toList_ofList]
    have hbound : ∀ n, .token n ∈ pieces path.toList →
        '}' ∉ (variableOf (params.map Param.name) (String.ofList n)).toList :=
      fun n _ => brace_notMem_aliasAt _
    exact (count_written (isTemplate_pieces hopen).braces hbound).le

theorem pointAtAliases_eq_iff_renamed (hopen : ¬ "$\x7b".toList <:+: path.toList)
    (hnames : ∀ name ∈ tokenNames path, name ∈ params.map Param.name)
    (hapart : BracesApart (template path) (withAliases 0 params)) :
    pointAtAliases (template path) (withAliases 0 params) =
        boundPath (params.map Param.name) path ↔
      ∀ name ∈ tokenNames path,
        renamed 0 (params.map Param.name) name = variableOf (params.map Param.name) name := by
  have hrenamed : ∀ n, .token n ∈ pieces path.toList →
      '}' ∉ (renamed 0 (params.map Param.name) (String.ofList n)).toList := by
    intro n hn
    obtain ⟨m, -, hm⟩ := exists_renamed_of_mem (i := 0) (hnames _ (mem_tokenNames.2 ⟨n, hn, rfl⟩))
    rw [hm]
    exact brace_notMem_aliasAt m
  have hwritten := written_eq_iff (f := renamed 0 (params.map Param.name))
    (g := variableOf (params.map Param.name)) hrenamed fun n _ => brace_notMem_aliasAt _
  rw [template_eq_written] at hapart ⊢
  have hps : IsTemplate id (pieces path.toList) := isTemplate_pieces hopen
  have hpointed := pointAtAliases_written hps hapart
  rw [hpointed, boundPath, String.ofList_inj]
  refine hwritten.trans ⟨?_, ?_⟩
  · rintro h name hname
    obtain ⟨n, hn, rfl⟩ := mem_tokenNames.1 hname
    exact h n hn
  · intro h n hn
    exact h _ (mem_tokenNames.2 ⟨n, hn, rfl⟩)

/-- Every token of a path reads the alias of the first parameter of its name, unless a later
parameter is named like that alias or takes a brace of the path for its own. -/
theorem pointAtAliases_eq_boundPath_iff (hopen : ¬ "$\x7b".toList <:+: path.toList)
    (hnames : ∀ name ∈ tokenNames path, name ∈ params.map Param.name) :
    pointAtAliases (template path) (withAliases 0 params) =
        boundPath (params.map Param.name) path ↔
      AliasesApart (params.map Param.name) path ∧
        BracesApart (template path) (withAliases 0 params) := by
  have hkeeps : (∀ name ∈ tokenNames path,
      renamed 0 (params.map Param.name) name = variableOf (params.map Param.name) name) ↔
      AliasesApart (params.map Param.name) path := by
    refine forall₂_congr fun name hname => ?_
    have hiff := renamed_eq_iff (i := 0) (hnames name hname)
    rwa [Nat.zero_add] at hiff
  constructor
  · intro h
    have hapart := bracesApart_of_eq hopen h
    exact ⟨hkeeps.1 ((pointAtAliases_eq_iff_renamed hopen hnames hapart).1 h), hapart⟩
  · rintro ⟨hlater, hapart⟩
    exact (pointAtAliases_eq_iff_renamed hopen hnames hapart).2 (hkeeps.2 hlater)

end Bound

theorem variableOf_injective_on {names : List String} {name name' : String} (hname : name ∈ names)
    (h : variableOf names name = variableOf names name') : name = name' :=
  (List.idxOf_inj hname).1 (aliasAt_injective h)

end Path

/-- The names of the path parameters, by position. -/
def Call.pathNames (call : Call) : List String :=
  call.params.path.map Param.name

theorem Endpoint.names_addImplied (params : List Param) (tokens : List String) :
    params.map Param.name ⊆ (addImplied params tokens).map Param.name ∧
      tokens ⊆ (addImplied params tokens).map Param.name := by
  induction tokens generalizing params with
  | nil => exact ⟨List.Subset.refl _, List.nil_subset _⟩
  | cons name rest ih =>
    rw [addImplied]
    split
    · next hany =>
      obtain ⟨p, hp, heq⟩ := List.any_eq_true.1 hany
      obtain ⟨hold, hrest⟩ := ih params
      have hname : name ∈ params.map Param.name := List.mem_map.2 ⟨p, hp, eq_of_beq heq⟩
      exact ⟨hold, List.cons_subset.2 ⟨hold hname, hrest⟩⟩
    · obtain ⟨hold, hrest⟩ := ih (params ++ [impliedParam name])
      rw [List.map_append, List.append_subset] at hold
      exact ⟨hold.1, List.cons_subset.2 ⟨hold.2 (by simp [impliedParam]), hrest⟩⟩

namespace Run

variable [Text.Transliteration] {r : Run}

theorem path_callPart (hnone : r.overrides = .none) (hplain : r.config.literalApiPrefix? = none)
    {e : Endpoint} (hbundle : e.operation.vendorBundle? = none) (tag : String) (s : CallShape)
    (functionName description : String) (names : ParamsTypeNames) :
    (r.callPart tag e s functionName description names).1.call.path =
      aliasedPath e (callParams s.params.groups) := by
  have hanswer (context : PrefixContext) : nonBlank (Overrides.none.apiPrefix context) = none := rfl
  simp only [callPart, hbundle, hnone, vendorPath?, Option.bind_none, Option.filter_none,
    Option.getD_none, applyPrefix, hanswer, hplain]

/-- Path parameters have their positions as aliases, and every token has a parameter, so tokens of
different names have different variables. The path of a call is written with these variables exactly
when no later parameter takes a placeholder away: by the name of an alias, or by a name with a
closing brace that an earlier placeholder happens to complete. -/
theorem path_binds_iff (r : Run) (c : Client) (hnone : r.overrides = .none)
    (hplain : r.config.literalApiPrefix? = none) (h : r.client = .ok c) (u : ServiceUnit)
    (hu : u ∈ c.services) (call : Call) (hcall : call ∈ u.operations) (e : Endpoint)
    (he : e ∈ r.document.spec.endpoints) (hkey : call.key = e.key)
    (hbundle : e.operation.vendorBundle? = none) :
    (∀ i p, call.params.path[i]? = some p → p.aliasName = some (Path.aliasAt i)) ∧
      (∀ name ∈ Path.tokenNames e.path, name ∈ call.pathNames ∧
        ∀ name' ∈ Path.tokenNames e.path,
          Path.variableOf call.pathNames name = Path.variableOf call.pathNames name' →
            name = name') ∧
      (call.path = Path.boundPath call.pathNames e.path ↔
        Path.AliasesApart call.pathNames e.path ∧
          Path.BracesApart (Path.template e.path) call.params.path) := by
  obtain ⟨e', he', hs, part, hpart, rfl⟩ := exists_isPartOf h hu hcall
  have hsame : e' = e := Document.endpoint_eq_of_key (ApiSpec.mem_members.1 he').1 he
    ((key_of_isPartOf hpart).symm.trans hkey)
  subst hsame
  obtain ⟨used, names, shape, description, hshape, -, rfl⟩ := hpart
  obtain ⟨hparams, -⟩ := shape_eq_ok hshape
  obtain ⟨named, grouped, -, -, hgroup⟩ := Endpoint.params_eq_ok hparams
  have hpath := path_callPart hnone hplain hbundle u.tag shape
    (used.take (r.functionName e')).1 description names
  have hcallParams : (r.callPart u.tag e' shape (used.take (r.functionName e')).1 description
      names).1.call.params.path = Path.withAliases 0 shape.params.groups.path := rfl
  have hnames : ∀ name ∈ Path.tokenNames e'.path,
      name ∈ shape.params.groups.path.map Param.name := by
    rw [hgroup]
    exact (Endpoint.names_addImplied _ _).2
  rw [hpath, Call.pathNames, hcallParams, Path.map_name_withAliases]
  refine ⟨fun i p hp => ?_, fun name hname => ⟨hnames name hname, fun name' _ heq => ?_⟩, ?_⟩
  · simpa using Path.aliasName_withAliases hp
  · exact Path.variableOf_injective_on (hnames name hname) heq
  · exact Path.pointAtAliases_eq_boundPath_iff (isSkipped_eq_false.1 hs) hnames

end Run

end ApiClient

namespace ApiClient.Run

def aliasTree (path : String) (declared : List String) : Json :=
  documentTree [(path, .object [("get", operationTree "list" ["pet"] []),
    ("parameters", .array (declared.map fun name =>
      .object [("name", .string name), ("in", .string "path")]))])] []

def namesRun : Run :=
  .ofTree .default (aliasTree "/{id}/:name/{id}" ["name"]) (by decide +kernel)

theorem namesRun_binds : ∃ c u call, namesRun.client = .ok c ∧ u ∈ c.services ∧
    call ∈ u.operations ∧ call.pathNames = ["name", "id"] ∧
    call.path = "/$\x7bparam1\x7d/$\x7bparam0\x7d/$\x7bparam1\x7d" := by
  obtain ⟨c, hc, hcalls⟩ : ∃ c, namesRun.client = .ok c ∧
      (c.services.flatMap fun u => u.operations.map fun call =>
        (call.key, call.pathNames)) =
          [(("/{id}/:name/{id}", "get"), ["name", "id"])] :=
    exists_ok_of_map (by decide +kernel)
  have hendpoints : (namesRun.document.spec.endpoints.map fun e =>
      (e.key, e.operation.vendorBundle?.isNone)) = [(("/{id}/:name/{id}", "get"), true)] := by
    decide +kernel
  obtain ⟨u, hu, call, hcall, heq⟩ := exists_call_of_mem (hcalls ▸ List.mem_singleton_self _)
  obtain ⟨hkey, hnames⟩ := Prod.mk.inj heq
  obtain ⟨e, he, heq⟩ := List.mem_map.1 (hendpoints ▸ List.mem_singleton_self _)
  obtain ⟨hekey, hbundle⟩ := Prod.mk.inj heq
  obtain ⟨-, -, hbinds⟩ := path_binds_iff namesRun c rfl (by decide) hc u hu call hcall e he
    (hkey.trans hekey.symm) (Option.isNone_iff_eq_none.1 hbundle)
  have hpath : e.path = "/{id}/:name/{id}" := congrArg Prod.fst hekey
  have hapart : Path.BracesApart (Path.template e.path) call.params.path := by
    intro before p after hsplit hbrace
    have hp : p.name ∈ call.pathNames :=
      List.mem_map_of_mem (hsplit ▸ by simp)
    rw [hnames] at hp
    have hnone : ∀ name ∈ ["name", "id"], '}' ∉ name.toList := by decide
    exact absurd hbrace (hnone p.name hp)
  rw [hnames, hpath] at hbinds
  rw [hpath] at hapart
  refine ⟨c, u, call, hc, hu, hcall, hnames, ?_⟩
  rw [hbinds.2 ⟨by decide +kernel, hapart⟩]
  decide +kernel

/-- A parameter that is named like the alias of the one before it. -/
def capturedRun : Run :=
  .ofTree .default (aliasTree "/{x}/{param0}" []) (by decide +kernel)

theorem not_path_binds : ¬ ∀ (r : Run) (c : Client), r.overrides = .none →
    r.config.literalApiPrefix? = none → r.client = .ok c → ∀ u ∈ c.services,
    ∀ call ∈ u.operations, ∀ e ∈ r.document.spec.endpoints, call.key = e.key →
      e.operation.vendorBundle? = none →
        call.path = Path.boundPath (call.pathNames) e.path := by
  intro binds
  obtain ⟨c, hc, hcalls⟩ : ∃ c, capturedRun.client = .ok c ∧
      (c.services.flatMap fun u => u.operations.map fun call =>
        (call.key, call.pathNames, call.path)) =
          [(("/{x}/{param0}", "get"), ["x", "param0"],
            "/$\x7bparam1\x7d/$\x7bparam1\x7d")] :=
    exists_ok_of_map (by decide +kernel)
  have hendpoints : (capturedRun.document.spec.endpoints.map fun e =>
      (e.key, e.operation.vendorBundle?.isNone)) = [(("/{x}/{param0}", "get"), true)] := by
    decide +kernel
  obtain ⟨u, hu, call, hcall, heq⟩ := exists_call_of_mem (hcalls ▸ List.mem_singleton_self _)
  simp only [Prod.mk.injEq] at heq
  obtain ⟨hkey, hnames, hpath⟩ := heq
  obtain ⟨e, he, heq⟩ := List.mem_map.1 (hendpoints ▸ List.mem_singleton_self _)
  obtain ⟨hekey, hbundle⟩ := Prod.mk.inj heq
  have hbound := binds capturedRun c rfl (by decide) hc u hu call hcall e he
    (hkey.trans hekey.symm) (Option.isNone_iff_eq_none.1 hbundle)
  have hepath : e.path = "/{x}/{param0}" := congrArg Prod.fst hekey
  rw [hnames, hpath, hepath] at hbound
  revert hbound
  decide +kernel

end ApiClient.Run
