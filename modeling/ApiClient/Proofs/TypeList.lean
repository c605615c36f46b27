import ApiClient.Proofs.ParamsTypes

namespace ApiClient

variable [Text.Transliteration]

namespace Run

variable {r : Run} {c : Client}

def hasParams (r : Run) (e : Endpoint) : Bool :=
  (e.params r.document r.typing).toOption.any fun p => !p.groups.isEmpty

/-- Path and method of the operations among some pairs that have parameters, each once. -/
def typedKeys (r : Run) (pairs : List (String × Endpoint)) : List (String × String) :=
  distinct ((pairs.filter fun pair => r.hasParams pair.2).map fun pair => pair.2.key)

/-- Path and method of the operations that have calls with parameters, in the order in which the
first calls of them are built. -/
def typedOperations (r : Run) : List (String × String) :=
  r.typedKeys r.emittedPairs

omit [Text.Transliteration] in
theorem isEmpty_callParams (g : ParamGroups) : (callParams g).isEmpty = g.isEmpty := by
  obtain ⟨query, path, cookie⟩ := g
  cases path <;> simp [callParams, ParamGroups.isEmpty, Path.withAliases]

theorem hasParams_eq {e : Endpoint} {shape : CallShape} (h : r.shape e = .ok shape) :
    r.hasParams e = !shape.params.groups.isEmpty := by
  rw [hasParams, (shape_eq_ok h).1]
  rfl

theorem mem_typedKeys {pairs : List (String × Endpoint)} {key : String × String} :
    key ∈ r.typedKeys pairs ↔ ∃ pair ∈ pairs, r.hasParams pair.2 = true ∧ pair.2.key = key := by
  simp only [typedKeys, mem_distinct, List.mem_map, List.mem_filter, and_assoc]

theorem typedKeys_append_singleton (pairs : List (String × Endpoint)) (tag : String)
    (e : Endpoint) : r.typedKeys (pairs ++ [(tag, e)]) = r.typedKeys pairs ++
      if r.hasParams e = true ∧ e.key ∉ r.typedKeys pairs then [e.key] else [] := by
  rw [typedKeys, List.filter_append, List.map_append, distinct_append, ← typedKeys]
  congr 1
  simp only [typedKeys, mem_distinct, List.filter_singleton]
  cases he : r.hasParams e with
  | false => simp [distinct]
  | true =>
    by_cases hkey : e.key ∈ (pairs.filter fun pair => r.hasParams pair.2).map fun pair => pair.2.key
    · simp [distinct, hkey]
    · simp [distinct, hkey]

theorem hasParams_callPart {tag functionName description : String} {e : Endpoint}
    {shape : CallShape} {names names' : ParamsTypeNames} {part : CallPart}
    (hshape : r.shape e = .ok shape)
    (hpart : r.callPart tag e shape functionName description names = (part, names')) :
    part.call.hasParams = r.hasParams e := by
  have hpart : part = (r.callPart tag e shape functionName description names).1 := by rw [hpart]
  rw [hasParams_eq hshape, ← isEmpty_callParams, hpart]
  rfl

structure IsTyped (r : Run) (names : ParamsTypeNames) (b : Built) : Prop where
  member : b.1.2 ∈ r.document.spec.endpoints
  key : b.2.call.key = b.1.2.key
  params : ∃ shape, r.shape b.1.2 = .ok shape ∧ b.2.call.params = callParams shape.params.groups
  named : r.hasParams b.1.2 = true → ∃ name, b.2.call.typeName = r.typing.qualify name ∧
    names.byOperation.lookup (operationKey b.1.2) = some name

def IsNamedType (r : Run) (names : ParamsTypeNames) (key : String × String) (i : Interface) :
    Prop :=
  ∃ e ∈ r.document.spec.endpoints, e.key = key ∧ r.hasParams e = true ∧
    names.byOperation.lookup (operationKey e) = some i.typeName ∧
    ∃ shape, r.shape e = .ok shape ∧ i = paramsInterface i.typeName (callParams shape.params.groups)

/-- What is known of the types that a trace has declared: one for every operation that has
parameters, under the name that the operation was given, and every call is typed by the one of its
operation. -/
structure Declares (r : Run) (built : List Built) (names : ParamsTypeNames) : Prop where
  types : List.Forall₂ (r.IsNamedType names) (r.typedKeys (built.map Prod.fst)) (declared built)
  named : ∀ e ∈ r.document.spec.endpoints, ∀ name,
    names.byOperation.lookup (operationKey e) = some name →
      e.key ∈ r.typedKeys (built.map Prod.fst)
  calls : ∀ b ∈ built, r.IsTyped names b

theorem declares_start (r : Run) : r.Declares [] .empty where
  types := .nil
  named := by simp [ParamsTypeNames.empty]
  calls := by simp

/-- A call of an operation that has a type already, or that needs none, declares nothing. -/
theorem Declares.append_call {built : List Built} {names : ParamsTypeNames} {tag : String}
    {e : Endpoint} {part : CallPart} (h : r.Declares built names) (hnone : part.paramsType = none)
    (hkey : r.hasParams e = true → e.key ∈ r.typedKeys (built.map Prod.fst))
    (hcall : r.IsTyped names ((tag, e), part)) :
    r.Declares (built ++ [((tag, e), part)]) names := by
  have hkeys : r.typedKeys ((built ++ [((tag, e), part)]).map Prod.fst) =
      r.typedKeys (built.map Prod.fst) := by
    rw [List.map_append, List.map_singleton, typedKeys_append_singleton,
      if_neg fun hnew => hnew.2 (hkey hnew.1), List.append_nil]
  constructor
  case types =>
    rw [hkeys, declared_append, declared_singleton, hnone, Option.toList_none, List.append_nil]
    exact h.types
  case named =>
    rw [hkeys]
    exact h.named
  case calls => exact List.forall_mem_append.2 ⟨h.calls, List.forall_mem_singleton.2 hcall⟩

theorem IsTyped.mono {names names' : ParamsTypeNames} {b : Built} (h : r.IsTyped names b)
    (hkeep : ∀ key name, names.byOperation.lookup key = some name →
      names'.byOperation.lookup key = some name) : r.IsTyped names' b :=
  { h with named := fun hparams =>
      let ⟨name, htype, hname⟩ := h.named hparams
      ⟨name, htype, hkeep _ _ hname⟩ }

theorem Declares.append_type {built : List Built} {names : ParamsTypeNames} {tag name : String}
    {e : Endpoint} {shape : CallShape} {part : CallPart} (h : r.Declares built names)
    (he : e ∈ r.document.spec.endpoints) (hshape : r.shape e = .ok shape)
    (hparams : r.hasParams e = true) (hnew : names.byOperation.lookup (operationKey e) = none)
    (htype : part.paramsType = some (paramsInterface name (callParams shape.params.groups)))
    (hcall : r.IsTyped ⟨(operationKey e, name) :: names.byOperation, name :: names.taken⟩
      ((tag, e), part)) :
    r.Declares (built ++ [((tag, e), part)])
      ⟨(operationKey e, name) :: names.byOperation, name :: names.taken⟩ := by
  have hkeep : ∀ key name', names.byOperation.lookup key = some name' →
      ((operationKey e, name) :: names.byOperation).lookup key = some name' := by
    intro key name' hlookup
    rw [lookup_cons_of_ne, hlookup]
    rintro rfl
    rw [hnew] at hlookup
    cases hlookup
  have hfresh : e.key ∉ r.typedKeys (built.map Prod.fst) := by
    intro hmem
    obtain ⟨i, -, e', he', hkey, -, hlookup, -⟩ := exists_of_forall₂_left h.types hmem
    obtain rfl := Document.endpoint_eq_of_key he' he hkey
    rw [hnew] at hlookup
    cases hlookup
  have hkeys : r.typedKeys ((built ++ [((tag, e), part)]).map Prod.fst) =
      r.typedKeys (built.map Prod.fst) ++ [e.key] := by
    rw [List.map_append, List.map_singleton, typedKeys_append_singleton, if_pos ⟨hparams, hfresh⟩]
  constructor
  case types =>
    rw [hkeys, declared_append, declared_singleton, htype, Option.toList_some]
    refine List.rel_append (h.types.imp ?_) (.cons ?_ .nil)
    · rintro key i ⟨e', he', hkey, hparams', hlookup, hi⟩
      exact ⟨e', he', hkey, hparams', hkeep _ _ hlookup, hi⟩
    · exact ⟨e, he, rfl, hparams, List.lookup_cons_self, shape, hshape, rfl⟩
  case named =>
    intro e' he' name' hlookup
    rw [hkeys, List.mem_append, List.mem_singleton]
    by_cases hsame : operationKey e' = operationKey e
    · exact .inr (operationKey_injective hsame)
    · rw [lookup_cons_of_ne hsame] at hlookup
      exact .inl (h.named e' he' name' hlookup)
  case calls =>
    refine List.forall_mem_append.2 ⟨fun b hb => ?_, List.forall_mem_singleton.2 hcall⟩
    exact (h.calls b hb).mono hkeep

theorem Declares.step {built : List Built} {names names' : ParamsTypeNames} {tag : String}
    {e : Endpoint} {shape : CallShape} {functionName description : String} {part : CallPart}
    (h : r.Declares built names) (he : e ∈ r.document.spec.endpoints)
    (hshape : r.shape e = .ok shape)
    (hpart : r.callPart tag e shape functionName description names = (part, names')) :
    r.Declares (built ++ [((tag, e), part)]) names' := by
  have hhas := hasParams_callPart hshape hpart
  have hkey : part.call.key = e.key := by
    have hpart : part = (r.callPart tag e shape functionName description names).1 := by rw [hpart]
    rw [hpart]
    rfl
  obtain ⟨hparams, ⟨hno, hnone, rfl⟩ | ⟨hyes, name, hname, hcases⟩⟩ := callPart_cases hpart
  · rw [hhas] at hno
    refine h.append_call hnone (by simp [hno]) ⟨he, hkey, ⟨shape, hshape, hparams⟩, by simp [hno]⟩
  · rw [hhas] at hyes
    obtain ⟨hknown, hnone, rfl⟩ | ⟨hnew, -, hsome, rfl⟩ := hcases
    · exact h.append_call hnone (fun _ => h.named e he name hknown)
        ⟨he, hkey, ⟨shape, hshape, hparams⟩, fun _ => ⟨name, hname, hknown⟩⟩
    · rw [hparams] at hsome
      exact h.append_type he hshape hyes hnew hsome
        ⟨he, hkey, ⟨shape, hshape, hparams⟩, fun _ => ⟨name, hname, List.lookup_cons_self⟩⟩

theorem Builds.declares {built : List Built} {names : ParamsTypeNames} (h : r.Builds built names) :
    r.Declares built names := by
  induction h with
  | start => exact declares_start r
  | step before member shaped builds ih => exact ih.step member shaped builds

def IsParamsType (r : Run) (c : Client) (key : String × String) (i : Interface) : Prop :=
  ∀ entry ∈ c.taggedCalls, entry.2.key = key → entry.2.typeName = r.typing.qualify i.typeName ∧
    i = paramsInterface i.typeName entry.2.params

/-- The named types of a client are those of its component schemas and of its operations. -/
structure ListsTypes (r : Run) (c : Client) (components params : List Interface) : Prop where
  ofSchemas : List.Forall₂ (fun entry i => ∃ named,
    NamedType.ofNode r.document r.typing r.config.enumStyle entry.2 = .ok named ∧
      i = named.toInterface entry.1) r.document.componentSchemas components
  ofOperations : List.Forall₂ (r.IsParamsType c) r.typedOperations params
  nodup : r.typedOperations.Nodup
  mem_iff (key : String × String) : key ∈ r.typedOperations ↔
    ∃ entry ∈ c.taggedCalls, entry.2.key = key ∧ entry.2.params.isEmpty = false
  perm : c.interfaces.Perm (components ++ params)
  sorted : (c.interfaces.map Interface.typeName).Pairwise (· ≤ ·)
  /-- Types with one name stand in their original order, those of component schemas first. -/
  stable (name : String) : c.interfaces.filter (fun i => i.typeName = name) =
    (components ++ params).filter fun i => i.typeName = name

theorem exists_listsTypes (r : Run) (c : Client) (h : r.client = .ok c) :
    ∃ components params, r.ListsTypes c components params := by
  obtain ⟨built, names, named, hbuilds, hnamed, hpairs, hcalls, hinterfaces⟩ := exists_builds h
  have hdeclares := hbuilds.declares
  refine ⟨named, declared built, ?_⟩
  constructor
  case ofSchemas => exact Document.forall₂_interfaces hnamed
  case ofOperations =>
    rw [typedOperations, ← hpairs]
    refine hdeclares.types.imp ?_
    rintro key i ⟨e, he, rfl, hparams, hlookup, shape, hshape, hi⟩ entry hentry hkey
    obtain ⟨b, hb, rfl⟩ := List.mem_map.1 (hcalls.subset hentry)
    obtain ⟨hmember, hsame, ⟨shape', hshape', hgroups⟩, htyped⟩ := hdeclares.calls b hb
    -- the call is one of this operation, so its name and its shape are known
    obtain rfl := Document.endpoint_eq_of_key he hmember (hkey.symm.trans hsame)
    obtain ⟨name, htype, hname⟩ := htyped hparams
    cases hshape.symm.trans hshape'
    cases hlookup.symm.trans hname
    exact ⟨htype, hgroups ▸ hi⟩
  case nodup => exact nodup_distinct _
  case mem_iff =>
    intro key
    rw [typedOperations, ← hpairs, mem_typedKeys]
    constructor
    · rintro ⟨_, hpair, hparams, rfl⟩
      obtain ⟨b, hb, rfl⟩ := List.mem_map.1 hpair
      obtain ⟨-, hsame, ⟨shape, hshape, hgroups⟩, -⟩ := hdeclares.calls b hb
      refine ⟨_, hcalls.symm.subset (List.mem_map_of_mem hb), hsame, ?_⟩
      rw [hgroups, isEmpty_callParams]
      simpa [hasParams_eq hshape] using hparams
    · rintro ⟨entry, hentry, rfl, hparams⟩
      obtain ⟨b, hb, rfl⟩ := List.mem_map.1 (hcalls.subset hentry)
      obtain ⟨-, hsame, ⟨shape, hshape, hgroups⟩, -⟩ := hdeclares.calls b hb
      refine ⟨_, List.mem_map_of_mem hb, ?_, hsame.symm⟩
      rw [hgroups, isEmpty_callParams] at hparams
      simp [hasParams_eq hshape, hparams]
  case perm =>
    rw [hinterfaces]
    exact Text.sortByKey_perm _
  case sorted =>
    rw [hinterfaces]
    exact List.pairwise_map.2 (Text.sortByKey_pairwise_le _)
  case stable =>
    intro name
    rw [hinterfaces]
    exact Text.filter_sortByKey _ name

end Run

end ApiClient

namespace ApiClient.Run

/-- An operation under two tags, one without parameters, and a component schema that has the name of
a parameter type. -/
def typesRun : Run :=
  .ofTree .default (documentTree [
    ("/b", .object [("get", operationTree "list" ["pet", "user"] ["page"])]),
    ("/a", .object [("get", operationTree "ping" ["pet"] []),
      ("post", operationTree "add" ["user"] ["name"])])]
    [("Zoo", .object []), ("ListParams", .object [])]) (by decide +kernel)

theorem typesRun_listsTypes : ∃ c components params, typesRun.client = .ok c ∧
    c.taggedCalls.map (fun entry => (entry.1, entry.2.key)) =
      [("pet", "/a", "get"), ("pet", "/b", "get"), ("user", "/a", "post"), ("user", "/b", "get")] ∧
    typesRun.typedOperations = [("/b", "get"), ("/a", "post")] ∧
    c.interfaces.map Interface.typeName = ["AddParams", "ListParams", "ListParams", "Zoo"] ∧
    typesRun.ListsTypes c components params := by
  obtain ⟨c, hc, heq⟩ : ∃ c, typesRun.client = .ok c ∧
      (c.taggedCalls.map fun entry => (entry.1, entry.2.key), c.interfaces.map Interface.typeName) =
        ([("pet", "/a", "get"), ("pet", "/b", "get"), ("user", "/a", "post"),
          ("user", "/b", "get")], ["AddParams", "ListParams", "ListParams", "Zoo"]) :=
    exists_ok_of_map (by decide +kernel)
  obtain ⟨hcalls, hnames⟩ := Prod.mk.inj heq
  obtain ⟨components, params, htypes⟩ := exists_listsTypes typesRun c hc
  exact ⟨c, components, params, hc, hcalls, by decide +kernel, hnames, htypes⟩

end ApiClient.Run
