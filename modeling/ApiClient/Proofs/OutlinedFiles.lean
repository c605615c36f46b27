import ApiClient.Proofs.OutlinedSchemas

namespace ApiClient.Endpoint

variable {d d' : Document}

section Settled

variable {pending : List String} {settled : String → Prop}

inductive UploadStep.SettledBoth (d d' : Document) (settled : String → Prop) :
    UploadStep → UploadStep → Prop where
  | follow {path : String} (h : settled path) :
      SettledBoth d d' settled (.follow path) (.follow path)
  | properties {ps ps' : List (String × SchemaNode)}
      (h : ∀ pair ∈ ps.zip ps', ¬ HidesFiles d d' pair.1.2 pair.2.2) :
      SettledBoth d d' settled (.properties ps) (.properties ps')

theorem UploadStep.SettledBoth.or_eq {step step' : UploadStep}
    (h : SettledBoth d d' settled step step') (path : String) :
    SettledBoth d d' (fun r => settled r ∨ r = path) step step' := by
  cases h with
  | follow h => exact .follow (.inl h)
  | properties h => exact .properties h

def IsClosedBoth (d d' : Document) (pending : List String) (settled : String → Prop) : Prop :=
  ∀ path, settled path → path ∈ pending → ∀ resolved resolved',
    d.resolveSchema (.reference path) = .ok resolved →
      d'.resolveSchema (.reference path) = .ok resolved' →
        List.Forall₂ (UploadStep.SettledBoth d d' settled) (resolvedSteps resolved)
          (resolvedSteps resolved')

/-- What two searches that take their steps at the same places report: the same fields if no
property hides files, and only if all steps are settled. -/
structure Compared (d d' : Document) (form form' : SchemaNode) (pending : List String)
    (steps steps' : List UploadStep) (fields fields' : List FileField) : Prop where
  length_le : fields'.length ≤ fields.length
  eq_of_shown : (∀ p p', SearchesBoth d d' form form' p p' → ¬ HidesFiles d d' p.2 p'.2) →
    fields' = fields
  exists_settled : fields' = fields → ∃ settled : String → Prop,
    List.Forall₂ (UploadStep.SettledBoth d d' settled) steps steps' ∧
      IsClosedBoth d d' pending settled

variable {form form' : SchemaNode} {rest rest' : List UploadStep} {fields fields' : List FileField}

theorem Compared.follow {path : String} {resolved resolved' : SchemaNode}
    (hresolved : d.resolveSchema (.reference path) = .ok resolved)
    (hresolved' : d'.resolveSchema (.reference path) = .ok resolved')
    (hlength : (resolvedSteps resolved).length = (resolvedSteps resolved').length)
    (h : Compared d d' form form' (Document.without path pending) (resolvedSteps resolved ++ rest)
      (resolvedSteps resolved' ++ rest') fields fields') :
    Compared d d' form form' pending (.follow path :: rest) (.follow path :: rest') fields
      fields' where
  length_le := h.length_le
  eq_of_shown := h.eq_of_shown
  exists_settled heq := by
    obtain ⟨settled, hsteps, hclosed⟩ := h.exists_settled heq
    obtain ⟨hnext, hrest⟩ := (forall₂_append_iff hlength).1 hsteps
    refine ⟨fun r => settled r ∨ r = path, ?_, ?_⟩
    · exact .cons (.follow (.inr rfl)) (hrest.imp fun _ _ hstep => hstep.or_eq path)
    · intro r hr hmem target target' htarget htarget'
      by_cases hsame : r = path
      · subst hsame
        cases hresolved.symm.trans htarget
        cases hresolved'.symm.trans htarget'
        exact hnext.imp fun _ _ hstep => hstep.or_eq r
      · have hkept := Document.mem_without.2 ⟨hmem, hsame⟩
        have hsteps := hclosed r (hr.resolve_right hsame) hkept target target' htarget htarget'
        exact hsteps.imp fun _ _ hstep => hstep.or_eq path

theorem Compared.skip {path : String} (hpath : path ∉ pending)
    (h : Compared d d' form form' pending rest rest' fields fields') :
    Compared d d' form form' pending (.follow path :: rest) (.follow path :: rest') fields
      fields' where
  length_le := h.length_le
  eq_of_shown := h.eq_of_shown
  exists_settled heq := by
    -- the reference was followed before, so nothing is asked of it here
    obtain ⟨settled, hsteps, hclosed⟩ := h.exists_settled heq
    refine ⟨fun r => settled r ∨ r = path, ?_, ?_⟩
    · exact .cons (.follow (.inr rfl)) (hsteps.imp fun _ _ hstep => hstep.or_eq path)
    · rintro r (hr | rfl) hmem target target' htarget htarget'
      · exact (hclosed r hr hmem target target' htarget htarget').imp
          fun _ _ hstep => hstep.or_eq path
      · exact absurd hmem hpath

theorem Compared.properties {ps ps' : List (String × SchemaNode)} {found found' : List FileField}
    (hps : ∀ pair ∈ ps.zip ps', SearchesBoth d d' form form' pair.1 pair.2)
    (hfound : Loses (∃ pair ∈ ps.zip ps', HidesFiles d d' pair.1.2 pair.2.2) found found')
    (h : Compared d d' form form' pending rest rest' fields fields') :
    Compared d d' form form' pending (.properties ps :: rest) (.properties ps' :: rest')
      (found ++ fields) (found' ++ fields') where
  length_le := by
    rw [List.length_append, List.length_append]
    exact Nat.add_le_add hfound.length_le h.length_le
  eq_of_shown hshown := by
    rw [h.eq_of_shown hshown, hfound.eq_iff.2]
    rintro ⟨pair, hpair, hhides⟩
    exact hshown _ _ (hps pair hpair) hhides
  exists_settled heq := by
    obtain ⟨hsame, heq⟩ := (append_eq_append_of_length_le hfound.length_le h.length_le).1 heq
    obtain ⟨settled, hsteps, hclosed⟩ := h.exists_settled heq
    have hshown := hfound.eq_iff.1 hsame
    refine ⟨settled, .cons (.properties fun pair hpair hhides => ?_) hsteps, hclosed⟩
    exact hshown ⟨pair, hpair, hhides⟩

end Settled

section Runs

variable {form form' : SchemaNode} {pending pending' : List String}

theorem share_of_inheritsBoth (hreferences : form.references ⊆ d.tree.references)
    (hreferences' : form'.references ⊆ d'.tree.references) {path : String}
    (h : InheritsBoth d d' form form' (.reference path) (.reference path)) :
    Document.Share d' d [path] :=
  ⟨h.left.references_subset hreferences, h.right.references_subset hreferences'⟩

/-- Two searches that take their steps at the same places fail alike, or report fields that compare.
What they have pending may differ in references that one of them cannot come to. -/
theorem sameOutcome_collectFiles (hform : OutlinedForm d d' form form')
    (hreferences : form.references ⊆ d.tree.references)
    (hreferences' : form'.references ⊆ d'.tree.references) {steps steps' : List UploadStep}
    (hpending : Document.AgreeOn d' d pending' pending)
    (h : List.Forall₂ (UploadStep.IsReachedBoth d d' form form') steps steps') :
    SameOutcome (Compared d d' form form' pending steps steps') (collectFiles d pending steps)
      (collectFiles d' pending' steps') := by
  fun_induction collectFiles d pending steps generalizing pending' steps' with
  | case1 =>
    cases h
    rw [collectFiles]
    exact .ok ⟨Nat.le_refl _, fun _ => rfl, fun _ => ⟨fun _ => False, .nil, fun _ h => h.elim⟩⟩
  | case2 pending path rest hpath ih =>
    cases h with
    | cons hstep hrest =>
      cases hstep with
      | follow hn =>
        have hshare := share_of_inheritsBoth hreferences hreferences' hn
        rw [collectFiles, if_pos ((hpending path hshare).2 hpath)]
        refine (hn.sameOutcome hform (.same _)).bind
          fun resolved resolved' hresolved hresolved' _ => ?_
        have hnext := hn.isReached_resolved hform hresolved hresolved'
        have hmore := ih resolved (hpending.without path) (List.rel_append hnext hrest)
        exact hmore.imp fun _ _ h => h.follow hresolved hresolved' hnext.length_eq
  | case3 pending path rest hpath ih =>
    cases h with
    | cons hstep hrest =>
      cases hstep with
      | follow hn =>
        have hshare := share_of_inheritsBoth hreferences hreferences' hn
        rw [collectFiles, if_neg fun hmem => hpath ((hpending path hshare).1 hmem)]
        exact (ih hpending hrest).imp fun _ _ h => h.skip hpath
  | case4 pending ps rest ih =>
    cases h with
    | cons hstep hrest =>
      cases hstep with
      | properties hn hs hs' =>
        have hsame := hn.outlined_schema hform hs hs'
        have hfound := sameOutcome_propertyFiles hsame.properties fun key path hp =>
          hform.followed path (.property hn.left hs hp)
        rw [collectFiles]
        refine hfound.bind fun _ _ _ _ hfound => (ih hpending hrest).bind fun _ _ _ _ hmore => ?_
        exact .ok (hmore.properties (fun pair hpair => ⟨_, _, _, _, hn, hs, hs', hpair⟩) hfound)

end Runs

section Shown

variable {form form' n n' : SchemaNode} {pending : List String} {settled : String → Prop}

theorem settledBoth_of_resolveSchema (hclosed : IsClosedBoth d d' pending settled)
    (houtlined : Outlined d d' n n') (hpending : n.references ⊆ pending)
    (hn : List.Forall₂ (UploadStep.SettledBoth d d' settled) (uploadSteps n) (uploadSteps n'))
    {s s' : Schema} (hs : d.resolveSchema n = .ok (.schema s))
    (hs' : d'.resolveSchema n' = .ok (.schema s')) :
    List.Forall₂ (UploadStep.SettledBoth d d' settled) (uploadSteps (.schema s))
      (uploadSteps (.schema s')) := by
  cases n with
  | reference path =>
    cases houtlined
    cases hn with
    | cons hstep _ =>
      cases hstep with
      | follow hpath => exact hclosed path hpath (hpending (List.mem_singleton_self _)) _ _ hs hs'
  | schema t =>
    obtain ⟨t', rfl⟩ := houtlined.exists_schema
    cases hs
    cases hs'
    exact hn
  | _ => cases hs

theorem InheritsBoth.isSettled (hform : OutlinedForm d d' form form')
    (hreferences : form.references ⊆ d.tree.references) (htree : d.tree.references ⊆ pending)
    (hclosed : IsClosedBoth d d' pending settled)
    (hsteps : List.Forall₂ (UploadStep.SettledBoth d d' settled) (uploadSteps form)
      (uploadSteps form')) (h : InheritsBoth d d' form form' n n') :
    List.Forall₂ (UploadStep.SettledBoth d d' settled) (uploadSteps n) (uploadSteps n') := by
  induction h with
  | self => exact hsteps
  | member hn hs hs' hm ih =>
    have hpending := List.Subset.trans (hn.left.references_subset hreferences) htree
    have hschema :=
      settledBoth_of_resolveSchema hclosed (hn.outlined hform) hpending ih hs hs'
    exact List.forall₂_zip ((hn.forall₂_schema hform hs hs').1 hschema).1 hm

theorem SearchesBoth.not_hidesFiles (hform : OutlinedForm d d' form form')
    (hreferences : form.references ⊆ d.tree.references) (htree : d.tree.references ⊆ pending)
    (hclosed : IsClosedBoth d d' pending settled)
    (hsteps : List.Forall₂ (UploadStep.SettledBoth d d' settled) (uploadSteps form)
      (uploadSteps form')) {p p' : String × SchemaNode} (h : SearchesBoth d d' form form' p p') :
    ¬ HidesFiles d d' p.2 p'.2 := by
  obtain ⟨n, n', s, s', hn, hs, hs', hp⟩ := h
  have hpending := List.Subset.trans (hn.left.references_subset hreferences) htree
  have hschema := settledBoth_of_resolveSchema hclosed (hn.outlined hform) hpending
    (hn.isSettled hform hreferences htree hclosed hsteps) hs hs'
  cases ((hn.forall₂_schema hform hs hs').1 hschema).2 with
  | properties hshown => exact hshown _ hp

theorem sameOutcome_schemaFiles (hform : OutlinedForm d d' form form')
    (hreferences : form.references ⊆ d.tree.references)
    (hreferences' : form'.references ⊆ d'.tree.references) :
    SameOutcome (fun fields fields' => fields' = fields ↔
        ∀ p p', SearchesBoth d d' form form' p p' → ¬ HidesFiles d d' p.2 p'.2)
      (schemaFiles d form) (schemaFiles d' form') := by
  refine (sameOutcome_collectFiles hform hreferences hreferences'
    (Document.agreeOn_append_references _ _)
    (InheritsBoth.isReached hform form form' .self)).imp fun fields fields' h => ?_
  refine ⟨fun heq p p' hp => ?_, h.eq_of_shown⟩
  obtain ⟨settled, hsteps, hclosed⟩ := h.exists_settled heq
  exact hp.not_hidesFiles hform hreferences (List.subset_append_right _ _) hclosed hsteps

/-- Bodies whose forms differ only in where the schemas of properties and items stand fail alike,
and they have the same file fields exactly if no array of binaries has its items moved behind a
reference. -/
theorem files_outlined_iff (d d' : Document) (e e' : Endpoint) (he : e ∈ d.spec.endpoints)
    (he' : e' ∈ d'.spec.endpoints) (b b' : RequestBody) (hb : e.declaredBody d = .ok (some b))
    (hb' : e'.declaredBody d' = .ok (some b')) (form form' : SchemaNode)
    (hform : multipartSchema? b = some form) (hform' : multipartSchema? b' = some form')
    (h : OutlinedForm d d' form form') :
    (∀ failure, e'.files d' = .error failure ↔ e.files d = .error failure) ∧
      ∀ files, e.files d = .ok files → (e'.files d' = .ok files ↔
        ∀ p p', SearchesBoth d d' form form' p p' → ¬ HidesFiles d d' p.2 p'.2) := by
  have hsearched := sameOutcome_schemaFiles h
    (List.Subset.trans (references_multipartSchema? hform)
      (references_subset_of_declaredBody hb (Document.references_endpoint_subset he)))
    (List.Subset.trans (references_multipartSchema? hform')
      (references_subset_of_declaredBody hb' (Document.references_endpoint_subset he')))
  rw [files_of_form hb hform, files_of_form hb' hform']
  generalize schemaFiles d form = outcome, schemaFiles d' form' = outcome' at hsearched ⊢
  cases hsearched with
  | error failure =>
    refine ⟨fun _ => Iff.rfl, fun files hfiles => ?_⟩
    cases hfiles
  | @ok fields fields' hfields =>
    refine ⟨fun failure => by simp only [Except.map, reduceCtorEq], fun files hfiles => ?_⟩
    cases hfiles
    have hreport : (if fields'.isEmpty then none else some fields') =
        (if fields.isEmpty then none else some fields) ↔ fields' = fields := by
      cases fields' <;> cases fields <;> simp
    simp only [Except.map, Except.ok.injEq, hreport, hfields]

end Shown

section Examples

def binaryNode : SchemaNode :=
  .schema { Schema.ofType "string" with format := some "binary" }

def arrayNode (item : SchemaNode) : SchemaNode :=
  .schema { Schema.ofType "array" with items := some (.single item) }

def photoReference : SchemaNode :=
  .reference "#/components/schemas/Photo"

def formSchema (property : SchemaNode) : Schema :=
  { Schema.ofType "object" with properties := some [("photo", property)] }

def formBody (property : SchemaNode) : RequestBody :=
  ⟨none, some [("multipart/form-data", ⟨some (.schema (formSchema property))⟩)], none⟩

def formPost (property : SchemaNode) : Endpoint :=
  ⟨"/a", .post, ⟨none, none, none, [], [], some (.item (formBody property)), [], none, []⟩, []⟩

def formSpec (property : SchemaNode) : ApiSpec :=
  ⟨none, none, .empty, [("/a", ⟨none, none, some (formPost property).operation, none, none, []⟩)],
    some ⟨[("Photo", binaryNode)], [], [], []⟩⟩

def formDocument (property : SchemaNode)
    (h : ApiSpec.ofJson? (formSpec property).toJson = some (formSpec property)) : Document :=
  ⟨(formSpec property).toJson, formSpec property, h⟩

theorem eq_of_inherits {d : Document} {s : Schema} (hall : s.allOf = []) {n : SchemaNode}
    (h : Inherits d (.schema s) n) : n = .schema s := by
  induction h with
  | self => rfl
  | member _ hs hm ih =>
    rw [ih] at hs
    cases hs
    rw [hall] at hm
    cases hm

theorem outlinedForm_of_place {d d' : Document} {p p' : SchemaNode}
    (hplain : ∀ path, p ≠ .reference path) (h : OutlinedPlace d d' p p') :
    OutlinedForm d d' (.schema (formSchema p)) (.schema (formSchema p')) where
  outlined := .schema rfl rfl (.same _) rfl (.cons h .nil) .nil
  followed path hpath := by
    cases hpath with
    | inherited hinherits => cases eq_of_inherits rfl hinherits
    | property hinherits hs hp =>
      rw [eq_of_inherits rfl hinherits] at hs
      cases hs
      exact absurd (Prod.mk.inj (List.mem_singleton.1 hp)).2.symm (hplain path)

theorem files_form {d : Document} {p q : SchemaNode} (h : d.resolveSchema p = .ok q) :
    (formPost p).files d = .ok ((fileField? "photo" q).map fun field => [field]) := by
  have hb : (formPost p).declaredBody d = .ok (some (formBody p)) := rfl
  have hform : multipartSchema? (formBody p) = some (.schema (formSchema p)) := rfl
  have hsteps : uploadSteps (.schema (formSchema p)) = [.properties [("photo", p)]] := rfl
  have hfile : propertyFile d ("photo", p) = .ok (fileField? "photo" q) := by
    rw [propertyFile, h]
    rfl
  rw [files_of_form hb hform, schemaFiles, hsteps, collectFiles, collectFiles, propertyFiles_cons,
    hfile]
  cases fileField? "photo" q <;> rfl

theorem searchesBoth_form {d d' : Document} {p p' : SchemaNode} {q q' : String × SchemaNode}
    (h : SearchesBoth d d' (.schema (formSchema p)) (.schema (formSchema p')) q q') :
    q = ("photo", p) ∧ q' = ("photo", p') := by
  obtain ⟨n, n', s, s', hn, hs, hs', hq⟩ := h
  rw [eq_of_inherits rfl hn.left] at hs
  rw [eq_of_inherits rfl hn.right] at hs'
  cases hs
  cases hs'
  exact Prod.mk.inj (List.mem_singleton.1 hq)

theorem resolveSchema_photoReference {p : SchemaNode} (h) :
    (formDocument p h).resolveSchema photoReference = .ok binaryNode :=
  Document.resolveSchema_of_lookup rfl rfl rfl

theorem outlinedPlace_photo {p p' : SchemaNode} (h h') :
    OutlinedPlace (formDocument p h) (formDocument p' h') binaryNode photoReference :=
  .behind (resolveSchema_photoReference h' ▸ .ok (.same binaryNode))

theorem files_photo_outlined :
    (formPost photoReference).files (formDocument photoReference rfl) =
      .ok (some [⟨"photo", false⟩]) := by
  have hfiles := (files_outlined_iff (formDocument binaryNode rfl)
    (formDocument photoReference rfl) (formPost binaryNode) (formPost photoReference)
    (List.mem_singleton_self _) (List.mem_singleton_self _) _ _ rfl rfl _ _ rfl rfl
    (outlinedForm_of_place (fun _ => SchemaNode.noConfusion) (outlinedPlace_photo rfl rfl))).2
  refine (hfiles _ (files_form rfl)).2 fun p p' hp => ?_
  obtain ⟨rfl, -⟩ := searchesBoth_form hp
  rintro ⟨s, -, -, hs, -, hbinary, -⟩
  cases hs
  cases hbinary

theorem not_files_outlined : ¬ ∀ (d d' : Document) (e e' : Endpoint), e ∈ d.spec.endpoints →
    e' ∈ d'.spec.endpoints → ∀ b b', e.declaredBody d = .ok (some b) →
      e'.declaredBody d' = .ok (some b') → ∀ form form', multipartSchema? b = some form →
        multipartSchema? b' = some form' → OutlinedForm d d' form form' →
          e'.files d' = e.files d := by
  intro hsame
  have hphotos := hsame (formDocument (arrayNode binaryNode) rfl)
    (formDocument (arrayNode photoReference) rfl) (formPost (arrayNode binaryNode))
    (formPost (arrayNode photoReference)) (List.mem_singleton_self _) (List.mem_singleton_self _)
    _ _ rfl rfl _ _ rfl rfl (outlinedForm_of_place (fun _ => SchemaNode.noConfusion)
      (.inPlace (.schema rfl rfl (.single (outlinedPlace_photo rfl rfl)) rfl .nil .nil)))
  rw [files_form rfl, files_form rfl] at hphotos
  cases hphotos

end Examples

end ApiClient.Endpoint
