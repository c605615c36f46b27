import ApiClient.Proofs.Traces
import Mathlib

namespace ApiClient

namespace ParamsTypeNames

theorem candidate_injective (base : String) : Function.Injective (candidate base) := by
  intro i j h
  have base_ne : ∀ n : Nat, base ++ toString n ≠ base := by
    intro n hn
    have hdigits : toString n = "" := by
      apply String.toList_injective
      simpa using congrArg String.toList hn
    rw [Nat.toString_eq_repr] at hdigits
    exact Nat.repr_ne_empty hdigits
  cases i with
  | zero =>
    cases j with
    | zero => rfl
    | succ j => exact absurd h.symm (base_ne _)
  | succ i =>
    cases j with
    | zero => exact absurd h (base_ne _)
    | succ j =>
      have hdigits : toString (i + 1 + 1) = toString (j + 1 + 1) := by
        apply String.toList_injective
        simpa [candidate] using congrArg String.toList h
      have hnum := Nat.repr_injective hdigits
      omega

/-- There is one candidate more than there are taken names, so one of them is free. -/
theorem firstFree_notMem (names : ParamsTypeNames) (base : String) :
    names.firstFree base ∉ names.taken := by
  have hnodup : ((List.range (names.taken.length + 1)).map (candidate base)).Nodup :=
    List.nodup_range.map (candidate_injective base)
  rw [firstFree]
  cases hfind : ((List.range (names.taken.length + 1)).map (candidate base)).find?
      fun name => !names.taken.contains name with
  | some name => simpa using List.find?_some hfind
  | none =>
    have hsub : (List.range (names.taken.length + 1)).map (candidate base) ⊆ names.taken := by
      intro name hname
      simpa using List.find?_eq_none.1 hfind name hname
    have hle := (List.subperm_of_subset hnodup hsub).length_le
    rw [List.length_map, List.length_range] at hle
    omega

theorem assign_cases (names : ParamsTypeNames) (key base : String) :
    (∃ name, names.byOperation.lookup key = some name ∧
      names.assign key base = ((name, false), names)) ∨
    (names.byOperation.lookup key = none ∧ ∃ name, name ∉ names.taken ∧
      names.assign key base =
        ((name, true), ⟨(key, name) :: names.byOperation, name :: names.taken⟩)) := by
  cases hknown : names.byOperation.lookup key with
  | some name =>
    left
    refine ⟨name, rfl, ?_⟩
    rw [assign, hknown]
  | none =>
    right
    refine ⟨rfl, names.firstFree base, names.firstFree_notMem base, ?_⟩
    rw [assign, hknown]

end ParamsTypeNames

theorem operationKey_injective {e e' : Endpoint}
    (h : Run.operationKey e = Run.operationKey e') : e.key = e'.key := by
  have blank_notMem : ∀ m : HttpMethod, ' ' ∉ m.text.toList := by
    intro m
    cases m <;> decide
  have hl : e.method.text.toList ++ ' ' :: e.path.toList =
      e'.method.text.toList ++ ' ' :: e'.path.toList := by
    simpa [Run.operationKey] using congrArg String.toList h
  obtain ⟨hmethod, hpath⟩ := Text.eq_of_append_mark (blank_notMem _) (blank_notMem _) hl
  exact Prod.ext (String.toList_injective hpath) (String.toList_injective hmethod)

/-- The names of the component schemas, in document order. -/
def Document.componentNames (d : Document) : List String :=
  ((d.spec.components.map (·.schemas)).getD []).map Prod.fst

/-- A type with one block, of the path, then the query, then the cookie parameters. -/
def Interface.Declares (i : Interface) (params : ParamGroups) : Prop :=
  ∃ fields, i.props = [.fields fields] ∧ fields.map (fun f => (f.name, f.type)) =
    (params.path ++ params.query ++ params.cookie).map fun p => (p.name, p.type)

theorem Run.paramsInterface_declares (name : String) (params : ParamGroups) :
    (paramsInterface name params).Declares params := by
  refine ⟨_, rfl, ?_⟩
  rw [List.map_map]
  rfl

theorem filter_eq_singleton {α : Type} {f : α → String} {l : List α} (h : (l.map f).Nodup) {a : α}
    (ha : a ∈ l) : l.filter (fun b => f b = f a) = [a] := by
  apply List.perm_singleton.1
  apply (List.perm_ext_iff_of_nodup (h.of_map f |>.filter _) (List.nodup_singleton a)).2
  intro b
  rw [List.mem_filter, List.mem_singleton, decide_eq_true_iff]
  constructor
  · rintro ⟨hb, heq⟩
    exact List.inj_on_of_nodup_map h hb ha heq
  · rintro rfl
    exact ⟨ha, rfl⟩

theorem Typing.qualify_injective (t : Typing) : Function.Injective t.qualify := by
  intro name name' h
  rw [qualify, qualify] at h
  split at h
  · exact h
  · apply String.toList_injective
    simpa using congrArg String.toList h

variable [Text.Transliteration]

theorem Document.typeNames_interfaces {d : Document} {t : Typing} {style : EnumStyle}
    {is : List Interface} (h : d.interfaces t style = .ok is) :
    is.map Interface.typeName = d.componentNames.map Naming.typeName := by
  have hentries := forall₂_interfaces h
  rw [componentNames, ← componentSchemas]
  clear h
  generalize d.componentSchemas = schemas at hentries
  induction hentries with
  | nil => rfl
  | cons hi _ ih =>
    obtain ⟨named, -, rfl⟩ := hi
    rw [List.map_cons, List.map_cons, List.map_cons, ih]
    rfl

namespace Run

variable {r : Run}

theorem callPart_cases {tag functionName description : String} {e : Endpoint} {shape : CallShape}
    {names names' : ParamsTypeNames} {part : CallPart}
    (h : r.callPart tag e shape functionName description names = (part, names')) :
    part.call.params = callParams shape.params.groups ∧
    ((part.call.hasParams = false ∧ part.paramsType = none ∧ names' = names) ∨
      part.call.hasParams = true ∧ ∃ name, part.call.typeName = r.typing.qualify name ∧
        ((names.byOperation.lookup (operationKey e) = some name ∧ part.paramsType = none ∧
            names' = names) ∨
          (names.byOperation.lookup (operationKey e) = none ∧ name ∉ names.taken ∧
            part.paramsType = some (paramsInterface name part.call.params) ∧
            names' = ⟨(operationKey e, name) :: names.byOperation, name :: names.taken⟩))) := by
  have hpart : part = (r.callPart tag e shape functionName description names).1 := by rw [h]
  have hnames : names' = (r.callPart tag e shape functionName description names).2 := by rw [h]
  subst hpart hnames
  refine ⟨rfl, ?_⟩
  cases hempty : (callParams shape.params.groups).isEmpty with
  | true =>
    left
    simp [callPart, nameParams, hempty]
  | false =>
    right
    obtain ⟨name, hknown, hassign⟩ | ⟨hknown, name, hfree, hassign⟩ :=
      names.assign_cases (operationKey e) (r.paramsTypeName e functionName)
    · exact ⟨by simp [callPart, hempty], name, by simp [callPart, nameParams, hempty, hassign],
        .inl ⟨hknown, by simp [callPart, nameParams, hempty, hassign]⟩⟩
    · exact ⟨by simp [callPart, hempty], name, by simp [callPart, nameParams, hempty, hassign],
        .inr ⟨hknown, hfree, by simp [callPart, nameParams, hempty, hassign]⟩⟩

/-- The names given so far belong to the types declared so far. An operation that has a name is an
endpoint whose parameters are declared, and so is every call that was built. -/
structure Tracks (r : Run) (names : ParamsTypeNames) (calls : List Call)
    (declared : List Interface) : Prop where
  nodup : names.taken.Nodup
  taken : (declared.map Interface.typeName).Perm names.taken
  known : ∀ e ∈ r.document.spec.endpoints, ∀ name,
    names.byOperation.lookup (operationKey e) = some name → ∃ shape, r.shape e = .ok shape ∧
      paramsInterface name (callParams shape.params.groups) ∈ declared
  typed : ∀ call ∈ calls, call.hasParams = true → ∃ name,
    call.typeName = r.typing.qualify name ∧ paramsInterface name call.params ∈ declared

theorem tracks_empty (r : Run) : r.Tracks .empty [] [] where
  nodup := List.nodup_nil
  taken := List.Perm.refl _
  known := by
    intro e he name h
    simp [ParamsTypeNames.empty] at h
  typed := by simp

theorem Tracks.of_subset {names : ParamsTypeNames} {calls calls' : List Call}
    {declared : List Interface} (h : r.Tracks names calls declared) (hsub : calls' ⊆ calls) :
    r.Tracks names calls' declared :=
  { h with typed := fun call hcall => h.typed call (hsub hcall) }

theorem Tracks.addCall {names : ParamsTypeNames} {calls : List Call} {declared : List Interface}
    (h : r.Tracks names calls declared) {call : Call}
    (hcall : call.hasParams = true → ∃ name, call.typeName = r.typing.qualify name ∧
      paramsInterface name call.params ∈ declared) :
    r.Tracks names (calls ++ [call]) declared := by
  refine { h with typed := ?_ }
  intro call' hmem hhas
  obtain hmem | hmem := List.mem_append.1 hmem
  · exact h.typed call' hmem hhas
  · rw [List.mem_singleton.1 hmem] at hhas ⊢
    exact hcall hhas

theorem Tracks.declare {names : ParamsTypeNames} {calls : List Call} {declared : List Interface}
    (h : r.Tracks names calls declared) {e : Endpoint} {shape : CallShape} {name : String}
    (he : e ∈ r.document.spec.endpoints) (hshape : r.shape e = .ok shape)
    (hfree : name ∉ names.taken) :
    r.Tracks ⟨(operationKey e, name) :: names.byOperation, name :: names.taken⟩ calls
      (declared ++ [paramsInterface name (callParams shape.params.groups)]) where
  nodup := List.nodup_cons.2 ⟨hfree, h.nodup⟩
  taken := by
    rw [List.map_append]
    exact List.perm_append_comm.trans (h.taken.cons name)
  known := by
    intro e' he' name' hlookup
    rw [List.lookup_cons] at hlookup
    split at hlookup
    · next heq =>
      cases hlookup
      have hkey := operationKey_injective (eq_of_beq heq)
      obtain rfl := Document.endpoint_eq_of_key he' he hkey
      exact ⟨shape, hshape, by simp⟩
    · obtain ⟨shape', hshape', hmem⟩ := h.known e' he' name' hlookup
      exact ⟨shape', hshape', List.mem_append_left _ hmem⟩
  typed := by
    intro call hcall hhas
    obtain ⟨name', hname', hmem⟩ := h.typed call hcall hhas
    exact ⟨name', hname', List.mem_append_left _ hmem⟩

theorem Tracks.callPart {tag functionName description : String} {e : Endpoint}
    {shape : CallShape} {names names' : ParamsTypeNames} {part : CallPart} {calls : List Call}
    {declared : List Interface} (h : r.Tracks names calls declared)
    (he : e ∈ r.document.spec.endpoints) (hshape : r.shape e = .ok shape)
    (hpart : r.callPart tag e shape functionName description names = (part, names')) :
    r.Tracks names' (calls ++ [part.call]) (declared ++ part.paramsType.toList) := by
  obtain ⟨hparams, ⟨hno, hnone, rfl⟩ | ⟨-, name, hname, hcases⟩⟩ := callPart_cases hpart
  · rw [hnone, Option.toList_none, List.append_nil]
    apply h.addCall
    intro hhas
    rw [hno] at hhas
    cases hhas
  · obtain ⟨hknown, hnone, rfl⟩ | ⟨hknown, hfree, hsome, rfl⟩ := hcases
    · rw [hnone, Option.toList_none, List.append_nil]
      obtain ⟨shape', hshape', hmem⟩ := h.known e he name hknown
      rw [hshape] at hshape'
      cases hshape'
      apply h.addCall
      intro _
      exact ⟨name, hname, hparams ▸ hmem⟩
    · rw [hsome, Option.toList_some, hparams]
      apply (h.declare he hshape hfree).addCall
      intro _
      exact ⟨name, hname, by simp [hparams]⟩

theorem Builds.tracks {built : List Built} {names : ParamsTypeNames} (h : r.Builds built names) :
    r.Tracks names (built.map fun b => b.2.call) (declared built) := by
  induction h with
  | start => exact tracks_empty r
  | step before member shaped builds ih =>
    rw [List.map_append, declared_append, List.map_singleton, declared_singleton]
    exact ih.callPart member shaped builds

theorem exists_tracks {c : Client} (h : r.client = .ok c) : ∃ names named declared,
    r.Tracks names (c.services.flatMap ServiceUnit.operations) declared ∧
    named.map Interface.typeName = r.document.componentNames.map Naming.typeName ∧
    c.interfaces.Perm (named ++ declared) := by
  obtain ⟨built, names, named, hbuilds, hnamed, -, hcalls, hinterfaces⟩ := exists_builds h
  refine ⟨names, named, _, hbuilds.tracks.of_subset ?_, Document.typeNames_interfaces hnamed, ?_⟩
  · intro call hcall
    obtain ⟨u, hu, hcall⟩ := List.mem_flatMap.1 hcall
    have htagged : (u.tag, call) ∈ c.taggedCalls :=
      List.mem_flatMap.2 ⟨u, hu, List.mem_map_of_mem hcall⟩
    obtain ⟨b, hb, heq⟩ := List.mem_map.1 (hcalls.subset htagged)
    exact List.mem_map.2 ⟨b, hb, congrArg Prod.snd heq⟩
  · rw [hinterfaces]
    exact Text.sortByKey_perm _

/-- The parameter type of a call is always declared, and declared once exactly when no component
schema has its name. -/
theorem paramsType_unique_iff (r : Run) (c : Client) (h : r.client = .ok c) (u : ServiceUnit)
    (hu : u ∈ c.services) (call : Call) (hcall : call ∈ u.operations)
    (hparams : call.hasParams = true) :
    ∃ name, call.typeName = r.typing.qualify name ∧
      (∃ i ∈ c.interfaces, i.typeName = name ∧ i.Declares call.params) ∧
      ((∃ i, c.interfaces.filter (fun i => i.typeName = name) = [i] ∧ i.Declares call.params) ↔
        ∀ key ∈ r.document.componentNames, Naming.typeName key ≠ name) := by
  obtain ⟨names, named, declared, htracks, hnamed, hperm⟩ := exists_tracks h
  obtain ⟨name, hname, hmem⟩ := htracks.typed call (List.mem_flatMap.2 ⟨u, hu, hcall⟩) hparams
  have hdeclares := paramsInterface_declares name call.params
  have hfilter : (c.interfaces.filter fun i => i.typeName = name).Perm
      ((named.filter fun i => i.typeName = name) ++ [paramsInterface name call.params]) := by
    have hone : (declared.filter fun i => i.typeName = name) = _ :=
      filter_eq_singleton (htracks.taken.nodup_iff.2 htracks.nodup) hmem
    have hall := hperm.filter fun i => i.typeName = name
    rwa [List.filter_append, hone] at hall
  have hcomponents : (named.filter fun i => i.typeName = name) = [] ↔
      ∀ key ∈ r.document.componentNames, Naming.typeName key ≠ name := by
    have hkeys := List.forall_mem_map (f := Interface.typeName) (l := named) (P := (· ≠ name))
    rw [hnamed, List.forall_mem_map] at hkeys
    rw [List.filter_eq_nil_iff, hkeys]
    simp
  refine ⟨name, hname, ⟨_, hperm.mem_iff.2 (List.mem_append_right _ hmem), rfl, hdeclares⟩, ?_⟩
  rw [← hcomponents]
  constructor
  · rintro ⟨i, hi, -⟩
    have hlength := hfilter.length_eq
    rw [hi, List.length_append] at hlength
    apply List.length_eq_zero_iff.1
    simpa using hlength
  · intro hnone
    rw [hnone, List.nil_append] at hfilter
    exact ⟨_, List.perm_singleton.1 hfilter, hdeclares⟩

end Run

end ApiClient

namespace ApiClient.Run

def pagesTree (schema : String) : Json :=
  documentTree [
    ("/a", .object [("get", operationTree "list" ["pet", "user"] ["page", "size"])]),
    ("/b", .object [("get", operationTree "list" ["user"] ["page"])])] [(schema, .object [])]

def pagesRun : Run :=
  .ofTree .default (pagesTree "List") (by decide +kernel)

theorem pagesRun_unique : ∃ c u call, pagesRun.client = .ok c ∧ u ∈ c.services ∧
    call ∈ u.operations ∧ call.typeName = "API.List2Params" ∧
    ∃ i, c.interfaces.filter (fun i => i.typeName = "List2Params") = [i] ∧
      i.Declares call.params := by
  obtain ⟨c, hc, hcalls⟩ : ∃ c, pagesRun.client = .ok c ∧
      (c.services.flatMap fun u => u.operations.map fun call => (call.typeName, call.hasParams)) =
        [("API.ListParams", true), ("API.ListParams", true), ("API.List2Params", true)] :=
    exists_ok_of_map (by decide +kernel)
  obtain ⟨u, hu, call, hcall, heq⟩ := exists_call_of_mem (b := ("API.List2Params", true))
    (by rw [hcalls]; decide)
  obtain ⟨htype, hparams⟩ := Prod.mk.inj heq
  obtain ⟨name, hname, -, hunique⟩ := paramsType_unique_iff pagesRun c hc u hu call hcall hparams
  have hbare : "List2Params" = name :=
    pagesRun.typing.qualify_injective (htype.symm.trans hname)
  subst hbare
  exact ⟨c, u, call, hc, hu, hcall, htype, hunique.2 (by decide +kernel)⟩

/-- A component schema that has the name of a parameter type. -/
def sharedNameRun : Run :=
  .ofTree .default (pagesTree "ListParams") (by decide +kernel)

theorem not_paramsType_unique : ¬ ∀ (r : Run) (c : Client), r.overrides = .none →
    r.client = .ok c → ∀ u ∈ c.services, ∀ call ∈ u.operations, call.hasParams = true →
      ∃ name, call.typeName = r.typing.qualify name ∧
        ∃ i, c.interfaces.filter (fun i => i.typeName = name) = [i] ∧
          i.Declares call.params := by
  intro unique
  obtain ⟨c, hc, hclient⟩ : ∃ c, sharedNameRun.client = .ok c ∧
      ((c.services.flatMap fun u => u.operations.map fun call => (call.typeName, call.hasParams)),
        c.interfaces.map Interface.typeName) =
        ([("API.ListParams", true), ("API.ListParams", true), ("API.List2Params", true)],
          ["List2Params", "ListParams", "ListParams"]) :=
    exists_ok_of_map (by decide +kernel)
  obtain ⟨hcalls, hinterfaces⟩ := Prod.mk.inj hclient
  obtain ⟨u, hu, call, hcall, heq⟩ := exists_call_of_mem (b := ("API.ListParams", true))
    (by rw [hcalls]; decide)
  obtain ⟨htype, hparams⟩ := Prod.mk.inj heq
  obtain ⟨name, hname, i, hi, -⟩ := unique sharedNameRun c rfl hc u hu call hcall hparams
  have hbare : "ListParams" = name :=
    sharedNameRun.typing.qualify_injective (htype.symm.trans hname)
  subst hbare
  have hnames := congrArg (List.filter fun name => name = "ListParams") hinterfaces
  rw [List.filter_map] at hnames
  have hlength := congrArg List.length hnames
  simp [Function.comp_def, hi] at hlength

end ApiClient.Run
