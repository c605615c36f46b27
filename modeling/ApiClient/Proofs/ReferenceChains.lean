import ApiClient.Proofs.TreeReferences

namespace ApiClient

section Types

namespace Json

/-- An object with a `type` in the place of its own, if there is one to put in. -/
def retyped (type? : Option Json) : Json → Json
  | object entries =>
    match type? with
    | some type => object (insertEntry "type" type entries)
    | none => object entries
  | v => v

theorem get?_retyped (type? : Option Json) (entries : List (String × Json)) (key : String) :
    ((object entries).retyped type?).get? key =
      if key = "type" then type?.or ((object entries).get? key) else (object entries).get? key := by
  cases type? with
  | none => exact (ite_self _).symm
  | some type => exact lookup_insertEntry ..

variable (type? : Option Json) (v : Json)

@[simp] theorem retyped_none : v.retyped none = v := by
  cases v <;> rfl

theorem retyped_retyped (earlier? : Option Json) :
    (v.retyped type?).retyped earlier? = v.retyped (earlier?.or type?) := by
  cases earlier? with
  | none => exact retyped_none _
  | some earlier =>
    cases v with
    | object entries =>
      cases type? with
      | none => rfl
      | some type => exact congrArg object (insertEntry_insertEntry "type" type earlier entries)
    | _ => rfl

theorem retyped_self : v.retyped (v.get? "type") = v := by
  cases v with
  | object entries =>
    have hget : (object entries).get? "type" = entries.lookup "type" := rfl
    rw [hget]
    cases htype : entries.lookup "type" with
    | none => rfl
    | some type => exact congrArg object (insertEntry_of_lookup htype)
  | _ => rfl

end Json

theorem Document.withTypeOf_eq_retyped (target resolved : Json) :
    withTypeOf target resolved = resolved.retyped (target.get? "type") := by
  unfold withTypeOf
  cases target.get? "type" <;> cases resolved <;> rfl

end Types

namespace Document

variable (d : Document) (first : String)

def target? (reference : String) : Option Json :=
  (d.lookup reference).toOption.join

/-- The references of a chain: the first one, and then in turn the string `$ref` of the node that
the one before points at. -/
def chain (first : String) : Nat → Option String
  | 0 => some first
  | k + 1 => (chain first k).bind fun reference => (d.target? reference).bind Json.reference?

def chainTarget? (k : Nat) : Option Json :=
  (d.chain first k).bind d.target?

def firstType? (count : Nat) : Option Json :=
  (List.range count).findSome? fun i => (d.chainTarget? first i).bind (Json.get? "type")

/-- A chain comes to its `k`-th reference, and all those before it are different. -/
structure ComesTo (k : Nat) (reference : String) : Prop where
  chain : d.chain first k = some reference
  differ : ∀ i j, i < j → j < k → d.chain first i ≠ d.chain first j

/-- The first thing that stops a chain happens at its `k`-th reference, and this is what the whole
chain resolves to. -/
inductive StopsAt : Nat → Except Failure (Option Json) → Prop where
  | external (hexternal : Text.startsWith "#/" first = false) : StopsAt 0 (.ok none)
  | missing {k : Nat} {reference : String} (hcomes : d.ComesTo first k reference)
      (hinternal : Text.startsWith "#/" reference = true) (htarget : d.target? reference = none) :
      StopsAt k (.error (.unresolved reference))
  | circular {j k : Nat} {reference : String} (hcomes : d.ComesTo first k reference) (hj : j < k)
      (hsame : d.chain first j = some reference) : StopsAt k (.error (.circular reference))
  | node {k : Nat} {reference : String} {target : Json} (hcomes : d.ComesTo first k reference)
      (htarget : d.target? reference = some target) (hlast : target.reference? = none) :
      StopsAt k (.ok (some (target.retyped (d.firstType? first (k + 1)))))
  | leaves {k : Nat} {reference : String} {target : Json}
      (hcomes : d.ComesTo first (k + 1) reference)
      (hexternal : Text.startsWith "#/" reference = false)
      (htarget : d.chainTarget? first k = some target) :
      StopsAt (k + 1) (.ok (some (target.retyped (d.firstType? first (k + 1)))))

variable {d first} {j k : Nat} {reference next : String} {target : Json}

section Steps

theorem target?_of_lookup {found : Option Json} (h : d.lookup reference = .ok found) :
    d.target? reference = found := by
  rw [target?, h]
  rfl

theorem lookup_of_target? (h : d.target? reference = some target) :
    d.lookup reference = .ok (some target) := by
  rw [target?] at h
  cases hlookup : d.lookup reference with
  | error failure =>
    rw [hlookup] at h
    cases h
  | ok found =>
    rw [hlookup] at h
    exact congrArg Except.ok h

theorem target?_of_error {failure : Failure} (h : d.lookup reference = .error failure) :
    d.target? reference = none := by
  rw [target?, h]
  rfl

theorem target?_external (h : Text.startsWith "#/" reference = false) :
    d.target? reference = none :=
  target?_of_lookup (lookup_external h)

theorem lookup_cases (d : Document) (reference : String) :
    (Text.startsWith "#/" reference = false ∧ d.lookup reference = .ok none) ∨
      (Text.startsWith "#/" reference = true ∧
        (d.lookup reference = .error (.unresolved reference) ∨
          ∃ target, d.lookup reference = .ok (some target))) := by
  cases h : Text.startsWith "#/" reference with
  | false => exact .inl ⟨rfl, lookup_external h⟩
  | true => exact .inr ⟨rfl, lookup_internal h⟩

theorem chain_succ (k : Nat) :
    d.chain first (k + 1) = (d.chainTarget? first k).bind Json.reference? := by
  rw [chain, chainTarget?]
  exact (Option.bind_assoc ..).symm

theorem firstType?_succ (k : Nat) : d.firstType? first (k + 1) =
    (d.firstType? first k).or ((d.chainTarget? first k).bind (Json.get? "type")) := by
  rw [firstType?, List.range_succ, List.findSome?_append, List.findSome?_singleton]
  rfl

theorem chain_eq_none_of_le (h : d.chain first j = none) (hjk : j ≤ k) :
    d.chain first k = none := by
  induction hjk with
  | refl => exact h
  | step _ ih => rw [chain, ih, Option.bind_none]

theorem comesTo_first (d : Document) (first : String) : d.ComesTo first 0 first where
  chain := rfl
  differ _ j _ hj := absurd hj (Nat.not_lt_zero j)

theorem ComesTo.step (h : d.ComesTo first k reference)
    (hnew : ∀ j < k, d.chain first j ≠ some reference) (htarget : d.target? reference = some target)
    (hnext : target.reference? = some next) : d.ComesTo first (k + 1) next where
  chain := by rw [Document.chain, h.chain, Option.bind_some, htarget, Option.bind_some, hnext]
  differ i j hij hj := by
    obtain hj | rfl := Nat.lt_succ_iff_lt_or_eq.1 hj
    · exact h.differ i j hij hj
    · rw [h.chain]
      exact hnew i hij

end Steps

section Stops

/-- What a chain resolves to when its references from the `k`-th on resolve to `rest`. -/
def throughChain (d : Document) (first : String) (k : Nat) :
    Except Failure (Option Json) → Except Failure (Option Json)
  | .error failure => .error failure
  | .ok (some v) => .ok (some (v.retyped (d.firstType? first k)))
  | .ok none =>
    match k with
    | 0 => .ok none
    | k + 1 =>
      .ok ((d.chainTarget? first k).map fun target => target.retyped (d.firstType? first (k + 1)))

theorem throughChain_zero (rest : Except Failure (Option Json)) :
    throughChain d first 0 rest = rest := by
  cases rest with
  | error failure => rfl
  | ok v =>
    cases v with
    | none => rfl
    | some v => exact congrArg (Except.ok ∘ some) v.retyped_none

def resolved (target : Json) : Option Json → Json
  | none => target
  | some v => withTypeOf target v

/-- The node of the `k`-th reference gives its `type` to what comes behind it, and stands for it
where that lies outside the document. -/
theorem throughChain_succ (htarget : d.chainTarget? first k = some target)
    (rest : Except Failure (Option Json)) :
    throughChain d first (k + 1) rest =
      throughChain d first k (rest.map fun v => some (resolved target v)) := by
  have htype : d.firstType? first (k + 1) = (d.firstType? first k).or (target.get? "type") := by
    rw [firstType?_succ, htarget, Option.bind_some]
  cases rest with
  | error failure => rfl
  | ok v =>
    cases v with
    | none =>
      simp only [throughChain, Except.map, resolved, htarget, Option.map_some, htype]
      rw [← Json.retyped_retyped, Json.retyped_self]
    | some v =>
      simp only [throughChain, Except.map, resolved, htype]
      rw [withTypeOf_eq_retyped, Json.retyped_retyped]

theorem follow_of_next {pending : List String} (hreference : reference ∈ pending)
    (hlookup : d.lookup reference = .ok (some target)) (hnext : target.reference? = some next) :
    d.follow pending reference =
      (d.follow (without reference pending) next).map fun v => some (resolved target v) := by
  rw [follow, if_pos hreference, hlookup]
  simp only [bind, Except.bind, hnext]
  cases d.follow (without reference pending) next with
  | error failure => rfl
  | ok v => cases v <;> rfl

theorem exists_chainTarget? (h : d.chain first (k + 1) = some reference) :
    ∃ target, d.chainTarget? first k = some target := by
  rw [chain_succ] at h
  obtain ⟨target, htarget, -⟩ := Option.bind_eq_some_iff.1 h
  exact ⟨target, htarget⟩

theorem ComesTo.stopsAt_external (h : d.ComesTo first k reference)
    (hexternal : Text.startsWith "#/" reference = false) :
    d.StopsAt first k (throughChain d first k (.ok none)) := by
  cases k with
  | zero =>
    obtain rfl : first = reference := Option.some.inj h.chain
    exact .external hexternal
  | succ k =>
    obtain ⟨target, htarget⟩ := exists_chainTarget? h.chain
    rw [throughChain, htarget]
    exact .leaves h hexternal htarget

theorem ComesTo.throughChain_node (h : d.ComesTo first k reference)
    (htarget : d.target? reference = some target) :
    throughChain d first k (.ok (some target)) =
      .ok (some (target.retyped (d.firstType? first (k + 1)))) := by
  have htype : d.firstType? first (k + 1) = (d.firstType? first k).or (target.get? "type") := by
    rw [firstType?_succ, chainTarget?, h.chain, Option.bind_some, htarget, Option.bind_some]
  rw [throughChain, htype, ← Json.retyped_retyped, Json.retyped_self]

theorem exists_stopsAt_follow {pending : List String} (hcomes : d.ComesTo first k reference)
    (hreference : reference ∈ first :: d.tree.references)
    (hpending : ∀ r ∈ first :: d.tree.references,
      r ∈ pending ↔ ∀ j < k, d.chain first j ≠ some r) :
    ∃ n, d.StopsAt first n (throughChain d first k (d.follow pending reference)) := by
  induction pending, reference using follow.induct generalizing k with
  | case1 pending reference hpath ih =>
    obtain ⟨hexternal, hlookup⟩ | ⟨hinternal, hlookup | ⟨target, hlookup⟩⟩ :=
      lookup_cases d reference
    · rw [follow, if_pos hpath, hlookup]
      exact ⟨k, hcomes.stopsAt_external hexternal⟩
    · rw [follow, if_pos hpath, hlookup]
      exact ⟨k, .missing hcomes hinternal (target?_of_error hlookup)⟩
    · have htarget := target?_of_lookup hlookup
      cases hnext : target.reference? with
      | none =>
        rw [follow, if_pos hpath, hlookup]
        simp only [bind, Except.bind, hnext]
        refine ⟨k, ?_⟩
        change d.StopsAt first k (throughChain d first k (.ok (some target)))
        rw [hcomes.throughChain_node htarget]
        exact .node hcomes htarget hnext
      | some next =>
        have hnode : d.chainTarget? first k = some target := by
          rw [chainTarget?, hcomes.chain, Option.bind_some, htarget]
        rw [follow_of_next hpath hlookup hnext, ← throughChain_succ hnode]
        have hnew := (hpending reference hreference).1 hpath
        have hmem : next ∈ d.tree.references :=
          references_subset_of_lookup hlookup (Json.mem_references_of_reference? hnext)
        refine ih next (hcomes.step hnew htarget hnext) (List.mem_cons_of_mem _ hmem) fun r hr => ?_
        have hlast : d.chain first k ≠ some r ↔ r ≠ reference := by
          rw [hcomes.chain, Ne, Option.some_inj, eq_comm]
        rw [mem_without, hpending r hr, Nat.forall_lt_succ_right, hlast]
  | case2 pending reference hpath =>
    rw [follow, if_neg hpath]
    rw [hpending reference hreference] at hpath
    push Not at hpath
    obtain ⟨j, hj, hsame⟩ := hpath
    exact ⟨k, .circular hcomes hj hsame⟩

theorem StopsAt.spec {outcome : Except Failure (Option Json)} (h : d.StopsAt first k outcome) :
    ∃ reference, d.ComesTo first k reference ∧
      ((d.chain first (k + 1) = none ∧
          outcome = throughChain d first k (d.lookup reference)) ∨
        ((∃ j < k, d.chain first j = some reference) ∧ d.chain first (k + 1) ≠ none ∧
          outcome = .error (.circular reference))) := by
  have hends {k : Nat} {reference : String} (hcomes : d.ComesTo first k reference)
      (h : (d.target? reference).bind Json.reference? = none) : d.chain first (k + 1) = none := by
    rw [chain, hcomes.chain, Option.bind_some, h]
  cases h with
  | external hexternal =>
    have hcomes := d.comesTo_first first
    refine ⟨first, hcomes, .inl ⟨hends hcomes (by rw [target?_external hexternal]; rfl), ?_⟩⟩
    rw [lookup_external hexternal]
    rfl
  | @missing _ reference hcomes hinternal htarget =>
    refine ⟨reference, hcomes, .inl ⟨hends hcomes (by rw [htarget]; rfl), ?_⟩⟩
    obtain hlookup | ⟨target, hlookup⟩ := lookup_internal (d := d) hinternal
    · rw [hlookup]
      rfl
    · rw [target?_of_lookup hlookup] at htarget
      cases htarget
  | @circular j k reference hcomes hj hsame =>
    refine ⟨reference, hcomes, .inr ⟨⟨j, hj, hsame⟩, fun hnone => ?_, rfl⟩⟩
    -- what comes behind the reference comes behind its earlier occurrence, too
    have hagain : d.chain first (j + 1) = none := by
      rwa [chain, hsame, ← hcomes.chain, ← chain]
    have hmissing := chain_eq_none_of_le hagain hj
    rw [hcomes.chain] at hmissing
    cases hmissing
  | @node _ reference target hcomes htarget hlast =>
    refine ⟨reference, hcomes, .inl ⟨hends hcomes (by rw [htarget]; exact hlast), ?_⟩⟩
    rw [lookup_of_target? htarget, hcomes.throughChain_node htarget]
  | @leaves k reference target hcomes hexternal htarget =>
    refine ⟨reference, hcomes, .inl ⟨hends hcomes (by rw [target?_external hexternal]; rfl), ?_⟩⟩
    rw [lookup_external hexternal, throughChain, htarget]
    rfl

theorem StopsAt.not_comesTo {n : Nat} {outcome : Except Failure (Option Json)}
    (h : d.StopsAt first k outcome) (hlt : k < n) : ¬ d.ComesTo first n next := by
  intro hlater
  obtain ⟨reference, hcomes, ⟨hnone, -⟩ | ⟨⟨j, hj, hsame⟩, -, -⟩⟩ := h.spec
  · have hmissing := chain_eq_none_of_le hnone hlt
    rw [hlater.chain] at hmissing
    cases hmissing
  · exact hlater.differ j k hj hlt (hsame.trans hcomes.chain.symm)

theorem StopsAt.unique {n : Nat} {outcome outcome' : Except Failure (Option Json)}
    (h : d.StopsAt first k outcome) (h' : d.StopsAt first n outcome') : outcome = outcome' := by
  obtain ⟨reference, hcomes, hend⟩ := h.spec
  obtain ⟨reference', hcomes', hend'⟩ := h'.spec
  obtain hlt | rfl | hlt := Nat.lt_trichotomy k n
  · exact absurd hcomes' (h.not_comesTo hlt)
  · obtain rfl : reference = reference' := Option.some.inj (hcomes.chain.symm.trans hcomes'.chain)
    obtain ⟨hnone, rfl⟩ | ⟨-, hsome, rfl⟩ := hend
    · obtain ⟨-, rfl⟩ | ⟨-, hsome, -⟩ := hend'
      · rfl
      · exact absurd hnone hsome
    · obtain ⟨hnone, -⟩ | ⟨-, -, rfl⟩ := hend'
      · exact absurd hnone hsome
      · rfl
  · exact absurd hcomes (h'.not_comesTo hlt)

end Stops

/-- Following a reference always comes to an end, which is where its chain first stops. -/
theorem resolve_eq_iff (d : Document) (first : String) :
    (∀ outcome, d.resolve first = outcome ↔ ∃ k, d.StopsAt first k outcome) ∧
      ∀ (type? : Option Json) (entries : List (String × Json)) (key : String),
        ((Json.object entries).retyped type?).get? key =
          if key = "type" then type?.or ((Json.object entries).get? key)
          else (Json.object entries).get? key := by
  have hfirst : ∃ n, d.StopsAt first n (throughChain d first 0 (d.resolve first)) :=
    exists_stopsAt_follow (d.comesTo_first first) List.mem_cons_self fun r hr => by simpa using hr
  obtain ⟨n, hstops⟩ := hfirst
  rw [throughChain_zero] at hstops
  refine ⟨fun outcome => ⟨?_, ?_⟩, Json.get?_retyped⟩
  · rintro rfl
    exact ⟨n, hstops⟩
  · rintro ⟨k, h⟩
    exact hstops.unique h

end Document

end ApiClient
