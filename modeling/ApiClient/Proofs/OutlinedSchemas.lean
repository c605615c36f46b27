import ApiClient.Proofs.BodyPartition
import ApiClient.Proofs.InheritedFiles

namespace ApiClient

section Outcomes

/-- Two results of one kind: one and the same failure, or related values. -/
inductive SameOutcome {α β : Type} (R : α → β → Prop) :
    Except Failure α → Except Failure β → Prop where
  | error (failure : Failure) : SameOutcome R (.error failure) (.error failure)
  | ok {a : α} {b : β} (h : R a b) : SameOutcome R (.ok a) (.ok b)

variable {α β γ δ : Type}

theorem SameOutcome.bind {R : α → β → Prop} {S : γ → δ → Prop} {x : Except Failure α}
    {y : Except Failure β} {f : α → Except Failure γ} {g : β → Except Failure δ}
    (h : SameOutcome R x y)
    (hnext : ∀ a b, x = .ok a → y = .ok b → R a b → SameOutcome S (f a) (g b)) :
    SameOutcome S (x >>= f) (y >>= g) := by
  cases h with
  | error failure => exact .error failure
  | ok h => exact hnext _ _ rfl rfl h

theorem SameOutcome.imp {R S : α → β → Prop} {x : Except Failure α} {y : Except Failure β}
    (h : SameOutcome R x y) (himp : ∀ a b, R a b → S a b) : SameOutcome S x y := by
  cases h with
  | error failure => exact .error failure
  | ok h => exact .ok (himp _ _ h)

theorem forall₂_append_iff {R : α → β → Prop} {l₁ l₂ : List α} {m₁ m₂ : List β}
    (hlength : l₁.length = m₁.length) :
    List.Forall₂ R (l₁ ++ l₂) (m₁ ++ m₂) ↔ List.Forall₂ R l₁ m₁ ∧ List.Forall₂ R l₂ m₂ := by
  refine ⟨fun h => ?_, fun h => List.rel_append h.1 h.2⟩
  have hfirst := List.forall₂_take_append _ _ _ h
  have hrest := List.forall₂_drop_append _ _ _ h
  rw [← hlength] at hfirst hrest
  rw [List.take_left] at hfirst
  rw [List.drop_left] at hrest
  exact ⟨hfirst, hrest⟩

structure Loses (hidden : Prop) (l m : List α) : Prop where
  length_le : m.length ≤ l.length
  eq_iff : m = l ↔ ¬ hidden

theorem Loses.refl {hidden : Prop} (h : ¬ hidden) (l : List α) : Loses hidden l l :=
  ⟨Nat.le_refl _, iff_of_true rfl h⟩

theorem append_eq_append_of_length_le {l₁ l₂ m₁ m₂ : List α} (h₁ : m₁.length ≤ l₁.length)
    (h₂ : m₂.length ≤ l₂.length) : m₁ ++ m₂ = l₁ ++ l₂ ↔ m₁ = l₁ ∧ m₂ = l₂ := by
  refine ⟨fun h => ?_, fun h => by rw [h.1, h.2]⟩
  have hlength := congrArg List.length h
  rw [List.length_append, List.length_append] at hlength
  exact List.append_inj h (by omega)

theorem Loses.append {hidden₁ hidden₂ : Prop} {l₁ l₂ m₁ m₂ : List α} (h₁ : Loses hidden₁ l₁ m₁)
    (h₂ : Loses hidden₂ l₂ m₂) : Loses (hidden₁ ∨ hidden₂) (l₁ ++ l₂) (m₁ ++ m₂) where
  length_le := by
    rw [List.length_append, List.length_append]
    exact Nat.add_le_add h₁.length_le h₂.length_le
  eq_iff := by
    rw [append_eq_append_of_length_le h₁.length_le h₂.length_le, h₁.eq_iff, h₂.eq_iff, not_or]

end Outcomes

namespace Endpoint

mutual

/-- Nodes of two documents that differ only in where the schemas of properties and items stand, as
far as it matters for file fields. -/
inductive Outlined (d d' : Document) : SchemaNode → SchemaNode → Prop where
  | same (n : SchemaNode) : Outlined d d' n n
  | schema {s s' : Schema} (htype : s'.type = s.type) (hformat : s'.format = s.format)
      (hitems : OutlinedItems d d' s.items s'.items)
      (hkeys : (s'.properties.getD []).map Prod.fst = (s.properties.getD []).map Prod.fst)
      (hproperties : List.Forall₂ (OutlinedPlace d d') ((s.properties.getD []).map Prod.snd)
        ((s'.properties.getD []).map Prod.snd))
      (hallOf : List.Forall₂ (Outlined d d') s.allOf s'.allOf) :
      Outlined d d' (.schema s) (.schema s')

/-- Places with such nodes: the node stays in place, or a reference of the second document resolves
to what it resolves to in the first. -/
inductive OutlinedPlace (d d' : Document) : SchemaNode → SchemaNode → Prop where
  | inPlace {n n' : SchemaNode} (h : Outlined d d' n n') : OutlinedPlace d d' n n'
  | behind {n : SchemaNode} {path : String}
      (h : SameOutcome (Outlined d d') (d.resolveSchema n) (d'.resolveSchema (.reference path))) :
      OutlinedPlace d d' n (.reference path)

inductive OutlinedItems (d d' : Document) : Option Items → Option Items → Prop where
  | same (items : Option Items) : OutlinedItems d d' items items
  | single {item item' : SchemaNode} (h : OutlinedPlace d d' item item') :
      OutlinedItems d d' (some (.single item)) (some (.single item'))

end

inductive Follows (d : Document) (node : SchemaNode) : String → Prop where
  | inherited {path : String} (h : Inherits d node (.reference path)) : Follows d node path
  | property {n : SchemaNode} {s : Schema} {key path : String} (h : Inherits d node n)
      (hs : d.resolveSchema n = .ok (.schema s))
      (hp : (key, .reference path) ∈ s.properties.getD []) : Follows d node path

/-- A node in one document and a node in another one differ only in where the schemas of properties
and items stand, and so does what the search follows from the first. -/
structure OutlinedForm (d d' : Document) (form form' : SchemaNode) : Prop where
  outlined : Outlined d d' form form'
  followed : ∀ path, Follows d form path → SameOutcome (Outlined d d')
    (d.resolveSchema (.reference path)) (d'.resolveSchema (.reference path))

inductive InheritsBoth (d d' : Document) (form form' : SchemaNode) :
    SchemaNode → SchemaNode → Prop where
  | self : InheritsBoth d d' form form' form form'
  | member {n n' m m' : SchemaNode} {s s' : Schema} (h : InheritsBoth d d' form form' n n')
      (hs : d.resolveSchema n = .ok (.schema s)) (hs' : d'.resolveSchema n' = .ok (.schema s'))
      (hm : (m, m') ∈ s.allOf.zip s'.allOf) : InheritsBoth d d' form form' m m'

def SearchesBoth (d d' : Document) (form form' : SchemaNode) (p p' : String × SchemaNode) : Prop :=
  ∃ n n' s s', InheritsBoth d d' form form' n n' ∧ d.resolveSchema n = .ok (.schema s) ∧
    d'.resolveSchema n' = .ok (.schema s') ∧
    (p, p') ∈ (s.properties.getD []).zip (s'.properties.getD [])

/-- The first of two properties is an array of binaries, and the items of the second stand behind a
reference. -/
def HidesFiles (d d' : Document) (p p' : SchemaNode) : Prop :=
  ∃ s s' path, d.resolveSchema p = .ok (.schema s) ∧ d'.resolveSchema p' = .ok (.schema s') ∧
    s.isBinary = false ∧ s.isBinaryArray = true ∧ s'.items = some (.single (.reference path))

variable {d d' : Document}

section Nodes

theorem Outlined.exists_schema {s : Schema} {n' : SchemaNode} (h : Outlined d d' (.schema s) n') :
    ∃ s', n' = .schema s' := by
  cases h with
  | same => exact ⟨s, rfl⟩
  | schema => exact ⟨_, rfl⟩

theorem Outlined.allOf {s s' : Schema} (h : Outlined d d' (.schema s) (.schema s')) :
    List.Forall₂ (Outlined d d') s.allOf s'.allOf := by
  cases h with
  | same => exact List.forall₂_same.2 fun m _ => .same m
  | schema _ _ _ _ _ hallOf => exact hallOf

def OutlinedProperty (d d' : Document) (p p' : String × SchemaNode) : Prop :=
  p'.1 = p.1 ∧ OutlinedPlace d d' p.2 p'.2

theorem forall₂_of_keys {ps ps' : List (String × SchemaNode)}
    (hkeys : ps'.map Prod.fst = ps.map Prod.fst)
    (h : List.Forall₂ (OutlinedPlace d d') (ps.map Prod.snd) (ps'.map Prod.snd)) :
    List.Forall₂ (OutlinedProperty d d') ps ps' := by
  induction ps generalizing ps' with
  | nil =>
    obtain rfl := List.map_eq_nil_iff.1 hkeys
    exact .nil
  | cons p ps ih =>
    cases ps' with
    | nil => cases hkeys
    | cons p' ps' =>
      obtain ⟨hkey, hkeys⟩ := List.cons.inj hkeys
      obtain ⟨hplace, hplaces⟩ := List.forall₂_cons.1 h
      exact .cons ⟨hkey, hplace⟩ (ih hkeys hplaces)

theorem Outlined.properties {s s' : Schema} (h : Outlined d d' (.schema s) (.schema s')) :
    List.Forall₂ (OutlinedProperty d d') (s.properties.getD []) (s'.properties.getD []) := by
  cases h with
  | same => exact List.forall₂_same.2 fun p _ => ⟨rfl, .inPlace (.same p.2)⟩
  | schema _ _ _ hkeys hproperties => exact forall₂_of_keys hkeys hproperties

theorem Outlined.sameOutcome {n n' : SchemaNode} (h : Outlined d d' n n')
    (hfollowed : ∀ path, n = .reference path → SameOutcome (Outlined d d')
      (d.resolveSchema (.reference path)) (d'.resolveSchema (.reference path))) :
    SameOutcome (Outlined d d') (d.resolveSchema n) (d'.resolveSchema n') := by
  cases h with
  | same =>
    cases n with
    | reference path => exact hfollowed path rfl
    | _ => exact .ok (.same _)
  | schema htype hformat hitems hkeys hproperties hallOf =>
    exact .ok (.schema htype hformat hitems hkeys hproperties hallOf)

theorem OutlinedPlace.sameOutcome {n n' : SchemaNode} (h : OutlinedPlace d d' n n')
    (hfollowed : ∀ path, n = .reference path → SameOutcome (Outlined d d')
      (d.resolveSchema (.reference path)) (d'.resolveSchema (.reference path))) :
    SameOutcome (Outlined d d') (d.resolveSchema n) (d'.resolveSchema n') := by
  cases h with
  | inPlace h => exact h.sameOutcome hfollowed
  | behind h => exact h

end Nodes

section Properties

theorem isBinaryArray_of_reference {s : Schema} {path : String}
    (h : s.items = some (.single (.reference path))) : s.isBinaryArray = false := by
  rw [Schema.isBinaryArray, h]
  exact Bool.and_false _

theorem isBinaryArray_of_outlined {s s' : Schema} (h : Outlined d d' (.schema s) (.schema s')) :
    s'.isBinaryArray = s.isBinaryArray ∨ ∃ path, s'.items = some (.single (.reference path)) := by
  cases h with
  | same => exact .inl rfl
  | schema htype _ hitems =>
    have hname : s'.typeName? = s.typeName? := by rw [Schema.typeName?, htype, Schema.typeName?]
    rw [Schema.isBinaryArray, Schema.isBinaryArray, hname]
    generalize s.items = items, s'.items = items' at hitems
    cases hitems with
    | same => exact .inl rfl
    | single hplace =>
      cases hplace with
      | behind => exact .inr ⟨_, rfl⟩
      | inPlace hitem =>
        cases hitem with
        | same => exact .inl rfl
        | @schema item item' _ hformat =>
          have hbinary : item'.isBinary = item.isBinary := by
            rw [Schema.isBinary, hformat, Schema.isBinary]
          simp only [SchemaNode.schema?, Option.any_some, hbinary, true_or]

theorem isBinary_of_outlined {s s' : Schema} (h : Outlined d d' (.schema s) (.schema s')) :
    s'.isBinary = s.isBinary := by
  cases h with
  | same => rfl
  | schema _ hformat => rw [Schema.isBinary, hformat, Schema.isBinary]

theorem hidesFiles_iff {p p' : SchemaNode} {s s' : Schema}
    (hs : d.resolveSchema p = .ok (.schema s)) (hs' : d'.resolveSchema p' = .ok (.schema s'))
    (h : Outlined d d' (.schema s) (.schema s')) :
    HidesFiles d d' p p' ↔
      s.isBinary = false ∧ s.isBinaryArray = true ∧ s'.isBinaryArray = false := by
  constructor
  · rintro ⟨t, t', path, ht, ht', hbinary, harray, hitems⟩
    cases hs.symm.trans ht
    cases hs'.symm.trans ht'
    exact ⟨hbinary, harray, isBinaryArray_of_reference hitems⟩
  · rintro ⟨hbinary, harray, hnone⟩
    obtain hsame | ⟨path, hpath⟩ := isBinaryArray_of_outlined h
    · exact absurd ((hsame.trans harray).symm.trans hnone) (by decide)
    · exact ⟨s, s', path, hs, hs', hbinary, harray, hpath⟩

theorem loses_fileField? {p p' q q' : SchemaNode} (hq : d.resolveSchema p = .ok q)
    (hq' : d'.resolveSchema p' = .ok q') (h : Outlined d d' q q') (key : String) :
    Loses (HidesFiles d d' p p') (fileField? key q).toList (fileField? key q').toList := by
  cases q with
  | schema s =>
    obtain ⟨s', rfl⟩ := h.exists_schema
    have hhides := hidesFiles_iff hq hq' h
    have hbinary := isBinary_of_outlined h
    by_cases hhidden : HidesFiles d d' p p'
    · obtain ⟨hb, ha, ha'⟩ := hhides.1 hhidden
      have hfound : fileField? key (.schema s) = some ⟨key, true⟩ := by simp [fileField?, hb, ha]
      have hlost : fileField? key (.schema s') = none := by simp [fileField?, hbinary, hb, ha']
      rw [hfound, hlost]
      exact ⟨Nat.zero_le _, iff_of_false (List.cons_ne_nil _ _).symm (not_not_intro hhidden)⟩
    · have harray (hb : s.isBinary = false) : s'.isBinaryArray = s.isBinaryArray := by
        obtain hsame | ⟨path, hpath⟩ := isBinaryArray_of_outlined h
        · exact hsame
        · have hnone := isBinaryArray_of_reference hpath
          rw [hnone, eq_false_of_ne_true fun ha => hhidden (hhides.2 ⟨hb, ha, hnone⟩)]
      have hsame : fileField? key (.schema s') = fileField? key (.schema s) := by
        rw [fileField?, fileField?, hbinary]
        cases hb : s.isBinary with
        | true => rfl
        | false => rw [harray hb]
      rw [hsame]
      exact .refl hhidden _
  | _ =>
    cases h
    refine .refl ?_ _
    rintro ⟨s, -, -, hs, -⟩
    cases hq.symm.trans hs

theorem sameOutcome_propertyFiles {ps ps' : List (String × SchemaNode)}
    (h : List.Forall₂ (OutlinedProperty d d') ps ps')
    (hfollowed : ∀ key path, (key, .reference path) ∈ ps → SameOutcome (Outlined d d')
      (d.resolveSchema (.reference path)) (d'.resolveSchema (.reference path))) :
    SameOutcome (Loses (∃ pair ∈ ps.zip ps', HidesFiles d d' pair.1.2 pair.2.2))
      (propertyFiles d ps) (propertyFiles d' ps') := by
  induction h with
  | nil => exact .ok (.refl (by simp) [])
  | @cons p p' ps ps' hp _ ih =>
    have hrest := ih fun key path hmem => hfollowed key path (List.mem_cons_of_mem p hmem)
    have hresolved := hp.2.sameOutcome fun path hpath =>
      hfollowed p.1 path (hpath ▸ List.mem_cons_self)
    have hfirst : SameOutcome (fun file file' => Loses (HidesFiles d d' p.2 p'.2)
        (Option.toList file) (Option.toList file')) (propertyFile d p) (propertyFile d' p') := by
      refine hresolved.bind fun q q' hq hq' hsame => .ok ?_
      rw [hp.1]
      exact loses_fileField? hq hq' hsame p.1
    rw [propertyFiles_cons, propertyFiles_cons, List.zip_cons_cons]
    simp only [List.exists_mem_cons_iff]
    refine hfirst.bind fun _ _ _ _ hfile => hrest.bind fun _ _ _ _ hfiles => ?_
    exact .ok (hfile.append hfiles)

end Properties

section Reached

variable {form form' n n' : SchemaNode}

theorem InheritsBoth.left (h : InheritsBoth d d' form form' n n') : Inherits d form n := by
  induction h with
  | self => exact .self
  | member _ hs _ hm ih => exact .member ih hs (List.of_mem_zip hm).1

theorem InheritsBoth.right (h : InheritsBoth d d' form form' n n') : Inherits d' form' n' := by
  induction h with
  | self => exact .self
  | member _ _ hs' hm ih => exact .member ih hs' (List.of_mem_zip hm).2

theorem InheritsBoth.sameOutcome (hform : OutlinedForm d d' form form')
    (h : InheritsBoth d d' form form' n n') (houtlined : Outlined d d' n n') :
    SameOutcome (Outlined d d') (d.resolveSchema n) (d'.resolveSchema n') :=
  houtlined.sameOutcome fun path hpath => hform.followed path (.inherited (hpath ▸ h.left))

theorem outlined_of_resolveSchema {s s' : Schema}
    (h : SameOutcome (Outlined d d') (d.resolveSchema n) (d'.resolveSchema n'))
    (hs : d.resolveSchema n = .ok (.schema s)) (hs' : d'.resolveSchema n' = .ok (.schema s')) :
    Outlined d d' (.schema s) (.schema s') := by
  rw [hs, hs'] at h
  cases h with
  | ok h => exact h

theorem InheritsBoth.outlined (hform : OutlinedForm d d' form form')
    (h : InheritsBoth d d' form form' n n') : Outlined d d' n n' := by
  induction h with
  | self => exact hform.outlined
  | member hn hs hs' hm ih =>
    exact List.forall₂_zip (outlined_of_resolveSchema (hn.sameOutcome hform ih) hs hs').allOf hm

theorem InheritsBoth.outlined_schema (hform : OutlinedForm d d' form form')
    (h : InheritsBoth d d' form form' n n') {s s' : Schema}
    (hs : d.resolveSchema n = .ok (.schema s)) (hs' : d'.resolveSchema n' = .ok (.schema s')) :
    Outlined d d' (.schema s) (.schema s') :=
  outlined_of_resolveSchema (h.sameOutcome hform (h.outlined hform)) hs hs'

inductive UploadStep.IsReachedBoth (d d' : Document) (form form' : SchemaNode) :
    UploadStep → UploadStep → Prop where
  | follow {path : String}
      (h : InheritsBoth d d' form form' (.reference path) (.reference path)) :
      IsReachedBoth d d' form form' (.follow path) (.follow path)
  | properties {n n' : SchemaNode} {s s' : Schema} (h : InheritsBoth d d' form form' n n')
      (hs : d.resolveSchema n = .ok (.schema s)) (hs' : d'.resolveSchema n' = .ok (.schema s')) :
      IsReachedBoth d d' form form' (.properties (s.properties.getD []))
        (.properties (s'.properties.getD []))

section Members

variable {R : UploadStep → UploadStep → Prop}

theorem length_memberSteps {members members' : List SchemaNode}
    (h : List.Forall₂ (fun m m' => (uploadSteps m).length = (uploadSteps m').length) members
      members') : (memberSteps members).length = (memberSteps members').length := by
  induction h with
  | nil => rfl
  | cons hm _ ih => rw [memberSteps, memberSteps, List.length_append, List.length_append, hm, ih]

theorem forall₂_memberSteps {members members' : List SchemaNode}
    (h : List.Forall₂ (fun m m' => (uploadSteps m).length = (uploadSteps m').length) members
      members') : List.Forall₂ R (memberSteps members) (memberSteps members') ↔
        List.Forall₂ (fun m m' => List.Forall₂ R (uploadSteps m) (uploadSteps m')) members
          members' := by
  induction h with
  | nil => exact iff_of_true .nil .nil
  | cons hm _ ih =>
    rw [memberSteps, memberSteps, forall₂_append_iff hm, ih, List.forall₂_cons]

theorem forall₂_uploadSteps {s s' : Schema}
    (h : List.Forall₂ (fun m m' => (uploadSteps m).length = (uploadSteps m').length) s.allOf
      s'.allOf) : List.Forall₂ R (uploadSteps (.schema s)) (uploadSteps (.schema s')) ↔
      List.Forall₂ (fun m m' => List.Forall₂ R (uploadSteps m) (uploadSteps m')) s.allOf s'.allOf ∧
        R (.properties (s.properties.getD [])) (.properties (s'.properties.getD [])) := by
  rw [uploadSteps_schema, uploadSteps_schema, forall₂_append_iff (length_memberSteps h),
    forall₂_memberSteps h, List.forall₂_cons, and_iff_left List.Forall₂.nil]

end Members

theorem InheritsBoth.isReached_schema (hform : OutlinedForm d d' form form')
    (h : InheritsBoth d d' form form' n n') {s s' : Schema}
    (hs : d.resolveSchema n = .ok (.schema s)) (hs' : d'.resolveSchema n' = .ok (.schema s'))
    (hmembers : ∀ m m', (m, m') ∈ s.allOf.zip s'.allOf → List.Forall₂
      (UploadStep.IsReachedBoth d d' form form') (uploadSteps m) (uploadSteps m')) :
    List.Forall₂ (UploadStep.IsReachedBoth d d' form form') (uploadSteps (.schema s))
      (uploadSteps (.schema s')) := by
  have hlength := (h.outlined_schema hform hs hs').allOf.length_eq
  have hsteps := List.forall₂_iff_zip.2 ⟨hlength, fun hm => hmembers _ _ hm⟩
  exact (forall₂_uploadSteps (hsteps.imp fun _ _ hm => hm.length_eq)).2
    ⟨hsteps, .properties h hs hs'⟩

theorem InheritsBoth.isReached (hform : OutlinedForm d d' form form') : ∀ n n',
    InheritsBoth d d' form form' n n' →
      List.Forall₂ (UploadStep.IsReachedBoth d d' form form') (uploadSteps n) (uploadSteps n')
  | .reference path, _, h => by
    cases h.outlined hform
    exact .cons (.follow h) .nil
  | .schema s, _, h => by
    obtain ⟨s', rfl⟩ := (h.outlined hform).exists_schema
    refine h.isReached_schema hform rfl rfl fun m m' hm => ?_
    exact InheritsBoth.isReached hform m m' (h.member rfl rfl hm)
  | .literal _, _, h => by
    cases h.outlined hform
    exact .nil
  | .other _, _, h => by
    cases h.outlined hform
    exact .nil
termination_by n => sizeOf n
decreasing_by exact sizeOf_lt_of_mem_allOf (List.of_mem_zip hm).1

theorem InheritsBoth.isReached_resolved (hform : OutlinedForm d d' form form')
    (h : InheritsBoth d d' form form' n n') {resolved resolved' : SchemaNode}
    (hn : d.resolveSchema n = .ok resolved) (hn' : d'.resolveSchema n' = .ok resolved') :
    List.Forall₂ (UploadStep.IsReachedBoth d d' form form') (resolvedSteps resolved)
      (resolvedSteps resolved') := by
  have hsame := h.sameOutcome hform (h.outlined hform)
  rw [hn, hn'] at hsame
  cases hsame with
  | ok hsame =>
    cases resolved with
    | schema s =>
      obtain ⟨s', rfl⟩ := hsame.exists_schema
      exact h.isReached_schema hform hn hn' fun m m' hm =>
        InheritsBoth.isReached hform m m' (h.member hn hn' hm)
    | _ =>
      cases hsame
      exact .nil

theorem InheritsBoth.forall₂_schema (hform : OutlinedForm d d' form form')
    (h : InheritsBoth d d' form form' n n') {s s' : Schema}
    (hs : d.resolveSchema n = .ok (.schema s)) (hs' : d'.resolveSchema n' = .ok (.schema s'))
    {R : UploadStep → UploadStep → Prop} :
    List.Forall₂ R (uploadSteps (.schema s)) (uploadSteps (.schema s')) ↔
      List.Forall₂ (fun m m' => List.Forall₂ R (uploadSteps m) (uploadSteps m')) s.allOf s'.allOf ∧
        R (.properties (s.properties.getD [])) (.properties (s'.properties.getD [])) := by
  have hlength := (h.outlined_schema hform hs hs').allOf.length_eq
  refine forall₂_uploadSteps (List.forall₂_iff_zip.2 ⟨hlength, fun hm => ?_⟩)
  exact (InheritsBoth.isReached hform _ _ (h.member hs hs' hm)).length_eq

theorem Inherits.references_subset {node : SchemaNode} (hnode : node.references ⊆ d.tree.references)
    (h : Inherits d node n) : n.references ⊆ d.tree.references := by
  induction h with
  | self => exact hnode
  | member _ hs hm ih =>
    exact List.Subset.trans (Schema.references_allOf_subset hm)
      (Document.references_subset_of_resolveSchema hs ih)

end Reached

end Endpoint

end ApiClient
