import ApiClient.Proofs.Placeholders
import ApiClient.Proofs.ReferenceChains
import ApiClient.Proofs.Runs

namespace ApiClient

section FirstUses

variable {α κ : Type} [DecidableEq κ] {key : α → κ} {taken taken' : List κ}

/-- The items whose keys are not taken and not the key of an earlier item. -/
def firstUses (key : α → κ) (taken : List κ) (items : List α) : List α :=
  (items.zipIdx.filter fun (a, i) => key a ∉ taken ++ (items.take i).map key).map Prod.fst

end FirstUses

namespace Path

/-- The names of the tokens of a text. From left to right, a token is read where one starts, and
else a character is skipped. -/
inductive HasTokens : List Char → List String → Prop where
  | nil : HasTokens [] []
  | token {cs name rest : List Char} {names : List String} (h : IsToken cs name rest)
      (hrest : HasTokens rest names) : HasTokens cs (String.ofList name :: names)
  | skip {c : Char} {rest : List Char} {names : List String}
      (h : ∀ name after, ¬ IsToken (c :: rest) name after) (hrest : HasTokens rest names) :
      HasTokens (c :: rest) names

section Tokens

variable {cs : List Char}

theorem HasTokens.unique {names names' : List String} (h : HasTokens cs names)
    (h' : HasTokens cs names') : names = names' := by
  induction h generalizing names' with
  | nil =>
    cases h' with
    | nil => rfl
    | token htoken => cases htoken
  | token htoken _ ih =>
    cases h' with
    | nil => cases htoken
    | token htoken' hrest' =>
      have hsame := htoken.token?_eq.symm.trans htoken'.token?_eq
      obtain ⟨rfl, rfl⟩ := Prod.mk.inj (Option.some.inj hsame)
      rw [ih hrest']
    | skip hno => exact absurd htoken (hno _ _)
  | skip hno _ ih =>
    cases h' with
    | token htoken => exact absurd htoken (hno _ _)
    | skip _ hrest' => exact ih hrest'

example : tokenNames "/a/{id}:copy/:/:id" = ["id", "copy", "id"] := by decide +kernel

end Tokens

end Path

def RefOr.IsExternal {α : Type} : RefOr α → Prop
  | reference path => Text.startsWith "#/" path = false
  | item _ => False

namespace Document

variable {d : Document}

inductive ResolvesTo (d : Document) : List (RefOr Parameter) → List Parameter → Prop where
  | nil : ResolvesTo d [] []
  | found {node : RefOr Parameter} {nodes : List (RefOr Parameter)} {p : Parameter}
      {ps : List Parameter} (h : d.resolveParameter node = .ok (some p))
      (hrest : ResolvesTo d nodes ps) : ResolvesTo d (node :: nodes) (p :: ps)
  | external {node : RefOr Parameter} {nodes : List (RefOr Parameter)} {ps : List Parameter}
      (h : node.IsExternal) (hrest : ResolvesTo d nodes ps) : ResolvesTo d (node :: nodes) ps

theorem resolve_eq_none_iff {reference : String} :
    d.resolve reference = .ok none ↔ Text.startsWith "#/" reference = false := by
  have hstops : ∃ n, d.StopsAt reference n (throughChain d reference 0 (d.resolve reference)) :=
    exists_stopsAt_follow (d.comesTo_first reference) List.mem_cons_self
      fun r hr => by simpa using hr
  obtain ⟨n, hstops⟩ := hstops
  rw [throughChain_zero] at hstops
  constructor
  · intro h
    rw [h] at hstops
    cases hstops with
    | external hexternal => exact hexternal
  · intro hexternal
    exact hstops.unique (.external hexternal)

theorem resolveParameter_eq_none_iff {node : RefOr Parameter} :
    d.resolveParameter node = .ok none ↔ node.IsExternal := by
  cases node with
  | item p => simp [resolveParameter, resolveRef, RefOr.IsExternal]
  | reference path =>
    rw [RefOr.IsExternal, ← resolve_eq_none_iff, resolveParameter, resolveRef, bind_eq_ok]
    constructor
    · rintro ⟨found, hfound, h⟩
      cases found with
      | none => exact hfound
      | some v => cases hread : Parameter.ofJson? v <;> simp [hread, pure, Except.pure] at h
    · intro h
      exact ⟨none, h, rfl⟩

end Document

/-- A parameter is declared again by one of its name at its location. -/
def Parameter.key (p : Parameter) : String × String :=
  (p.name, p.location)

namespace Endpoint

variable {d : Document}

theorem declaredIn_cons {node : RefOr Parameter} {nodes : List (RefOr Parameter)}
    {ps : List Parameter} : declaredIn d (node :: nodes) = .ok ps ↔
      ∃ found rest, d.resolveParameter node = .ok found ∧ declaredIn d nodes = .ok rest ∧
        ps = found.toList ++ rest := by
  rw [declaredIn, declaredIn, List.mapM_cons, bind_eq_ok]
  simp only [bind_eq_ok]
  constructor
  · rintro ⟨all, ⟨found, hfound, more, hmore, hall⟩, hps⟩
    cases hall
    cases hps
    refine ⟨found, _, hfound, ⟨more, hmore, rfl⟩, ?_⟩
    cases found <;> rfl
  · rintro ⟨found, rest, hfound, ⟨more, hmore, hrest⟩, rfl⟩
    cases hrest
    refine ⟨_, ⟨found, hfound, more, hmore, rfl⟩, ?_⟩
    cases found <;> rfl

theorem declaredIn_eq_ok_iff {nodes : List (RefOr Parameter)} {ps : List Parameter} :
    declaredIn d nodes = .ok ps ↔ d.ResolvesTo nodes ps := by
  induction nodes generalizing ps with
  | nil =>
    constructor
    · intro h
      cases h
      exact .nil
    · intro h
      cases h
      rfl
  | cons node nodes ih =>
    rw [declaredIn_cons]
    constructor
    · rintro ⟨found, rest, hfound, hrest, rfl⟩
      cases found with
      | none => exact .external (Document.resolveParameter_eq_none_iff.1 hfound) (ih.1 hrest)
      | some p => exact .found hfound (ih.1 hrest)
    · intro h
      cases h with
      | found h hrest => exact ⟨some _, _, h, ih.2 hrest, rfl⟩
      | external h hrest =>
        exact ⟨none, _, Document.resolveParameter_eq_none_iff.2 h, ih.2 hrest, rfl⟩

variable [Text.Transliteration] {t : Typing} {path : String} {named : List Parameter}
  {c c' : ClassifiedParams}

/-- The parameters at a location become those of a call, in order. -/
def GroupedAs (d : Document) (t : Typing) (location : String) (named : List Parameter)
    (group : List Param) : Prop :=
  List.Forall₂ (fun p param => toParam d t p = .ok param)
    (named.filter fun p => p.location == location) group

/-- What the parameters with names of an endpoint are classified as. -/
structure ClassifiedAs (d : Document) (t : Typing) (path : String) (named : List Parameter)
    (c : ClassifiedParams) : Prop where
  query : GroupedAs d t "query" named c.groups.query
  path : ∃ declared tokens, GroupedAs d t "path" named declared ∧
    Path.HasTokens path.toList tokens ∧ c.groups.path =
      declared ++ (firstUses id (declared.map Param.name) tokens).map impliedParam
  cookie : GroupedAs d t "cookie" named c.groups.cookie
  hasHeader : c.hasHeader = true ↔ ∃ p ∈ named, p.location = "header"
  inPlace : (∀ p ∈ c.groups.query, p.location = "query") ∧
    (∀ p ∈ c.groups.path, p.location = "path") ∧ ∀ p ∈ c.groups.cookie, p.location = "cookie"

theorem GroupedAs.unique {location : String} {group group' : List Param}
    (h : GroupedAs d t location named group) (h' : GroupedAs d t location named group') :
    group = group' := by
  have hfunction : Relator.RightUnique fun (p : Parameter) param => toParam d t p = .ok param := by
    intro p param param' hparam hparam'
    exact Except.ok.inj (hparam.symm.trans hparam')
  exact List.right_unique_forall₂' hfunction h h'

theorem ClassifiedAs.unique (h : ClassifiedAs d t path named c)
    (h' : ClassifiedAs d t path named c') : c = c' := by
  obtain ⟨⟨query, group, cookie⟩, hasHeader⟩ := c
  obtain ⟨⟨query', group', cookie'⟩, hasHeader'⟩ := c'
  obtain ⟨declared, tokens, hdeclared, htokens, hgroup⟩ := h.path
  obtain ⟨declared', tokens', hdeclared', htokens', hgroup'⟩ := h'.path
  dsimp only at hgroup hgroup'
  have hpath : group = group' := by
    rw [hgroup, hgroup', hdeclared.unique hdeclared', htokens.unique htokens']
  have hheader : hasHeader = hasHeader' := Bool.eq_iff_iff.2 (h.hasHeader.trans h'.hasHeader.symm)
  have hquery : query = query' := h.query.unique h'.query
  have hcookie : cookie = cookie' := h.cookie.unique h'.cookie
  rw [hpath, hheader, hquery, hcookie]

theorem GroupedAs.exists_toParam {location : String} {group : List Param}
    (h : GroupedAs d t location named group) {p : Parameter} (hp : p ∈ named)
    (hlocation : p.location = location) : ∃ param, toParam d t p = .ok param := by
  obtain ⟨param, -, hparam⟩ := exists_of_forall₂_left h
    (List.mem_filter.2 ⟨hp, beq_iff_eq.2 hlocation⟩)
  exact ⟨param, hparam⟩

end Endpoint

end ApiClient
