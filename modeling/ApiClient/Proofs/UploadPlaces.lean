import ApiClient.Proofs.BodyPartition
import ApiClient.Proofs.InheritedFiles
import Mathlib.Data.List.Pairwise

namespace ApiClient.Endpoint

def UploadStep.own : UploadStep → List (String × SchemaNode)
  | follow _ => []
  | properties ps => ps

def propertiesIn (node : SchemaNode) : List (String × SchemaNode) :=
  (resolvedSteps node).flatMap UploadStep.own

/-- Properties at a place: in the form, or in what a reference leads to. -/
def propertiesAt (d : Document) (form : SchemaNode) : Option String → List (String × SchemaNode)
  | none => propertiesIn form
  | some path =>
    match d.resolveSchema (.reference path) with
    | .ok resolved => propertiesIn resolved
    | .error _ => []

def IsPlace (d : Document) (form : SchemaNode) : Option String → Prop
  | none => True
  | some path => Inherits d form (.reference path)

def uploads (d : Document) (node : SchemaNode) : Bool :=
  match d.resolveSchema node with
  | .ok resolved => isUpload resolved
  | .error _ => false

def uploadKeys (d : Document) (ps : List (String × SchemaNode)) : List String :=
  (ps.filter fun p => uploads d p.2).map Prod.fst

/-- No two uploads of a form have the same key, neither at one place nor at two. -/
structure FindsOnce (d : Document) (form : SchemaNode) : Prop where
  within : ∀ place, IsPlace d form place → (uploadKeys d (propertiesAt d form place)).Nodup
  across : ∀ place place', IsPlace d form place → IsPlace d form place' → place ≠ place' →
    List.Disjoint (uploadKeys d (propertiesAt d form place))
      (uploadKeys d (propertiesAt d form place'))

variable {d : Document} {form : SchemaNode} {pending : List String}

theorem uploadKeys_append (ps ps' : List (String × SchemaNode)) :
    uploadKeys d (ps ++ ps') = uploadKeys d ps ++ uploadKeys d ps' := by
  rw [uploadKeys, List.filter_append, List.map_append]
  rfl

theorem propertiesAt_some {path : String} {resolved : SchemaNode}
    (h : d.resolveSchema (.reference path) = .ok resolved) :
    propertiesAt d form (some path) = propertiesIn resolved := by
  rw [propertiesAt, h]

theorem map_title_fileField? (key : String) (node : SchemaNode) :
    (fileField? key node).toList.map FileField.title = if isUpload node then [key] else [] := by
  cases hfield : fileField? key node with
  | none =>
    have hupload : isUpload node ≠ true := by
      intro hupload
      obtain ⟨multiple, hfield'⟩ := exists_fileField?_iff.2 ⟨rfl, hupload⟩
      cases hfield.symm.trans hfield'
    rw [if_neg hupload]
    rfl
  | some field =>
    obtain ⟨hkey, hupload⟩ := exists_fileField?_iff.1 ⟨field.multiple, hfield⟩
    rw [if_pos hupload, hkey]
    rfl

theorem map_title_propertyFiles {ps : List (String × SchemaNode)} {fields : List FileField}
    (h : propertyFiles d ps = .ok fields) : fields.map FileField.title = uploadKeys d ps := by
  induction ps generalizing fields with
  | nil =>
    cases h
    rfl
  | cons p ps ih =>
    rw [propertyFiles_cons] at h
    obtain ⟨file, hfile, h⟩ := bind_eq_ok.1 h
    obtain ⟨more, hmore, h⟩ := bind_eq_ok.1 h
    obtain ⟨resolved, hresolved, hfile⟩ := bind_eq_ok.1 hfile
    have hp : uploads d p.2 = isUpload resolved := by
      rw [uploads, hresolved]
    cases h
    cases hfile
    rw [List.map_append, ih hmore, map_title_fileField?, uploadKeys, uploadKeys, List.filter_cons,
      hp]
    cases isUpload resolved <;> rfl

section Visits

/-- The references that a search follows: each once, those of the steps first, then those of what it
comes to. -/
structure Visits (d : Document) (pending : List String) (steps : List UploadStep)
    (paths : List String) : Prop where
  nodup : paths.Nodup
  subset : paths ⊆ pending
  followed : ∀ path, .follow path ∈ steps → path ∈ pending → path ∈ paths
  closed : ∀ path ∈ paths, ∃ resolved, d.resolveSchema (.reference path) = .ok resolved ∧
    ∀ next, .follow next ∈ resolvedSteps resolved → next ∈ pending → next ∈ paths
  inherited : ∀ node, (∀ step ∈ steps, step.IsReached d node) →
    ∀ path ∈ paths, Inherits d node (.reference path)

namespace Visits

variable {steps rest : List UploadStep} {paths : List String} {path : String}

theorem nil : Visits d pending [] [] where
  nodup := List.nodup_nil
  subset := List.nil_subset _
  followed _ h := absurd h List.not_mem_nil
  closed _ h := absurd h List.not_mem_nil
  inherited _ _ _ h := absurd h List.not_mem_nil

theorem follow {resolved : SchemaNode} (hpath : path ∈ pending)
    (hresolved : d.resolveSchema (.reference path) = .ok resolved)
    (h : Visits d (Document.without path pending) (resolvedSteps resolved ++ rest) paths) :
    Visits d pending (.follow path :: rest) (path :: paths) := by
  -- whatever is pending is the reference itself or still pending behind it
  have hkept : ∀ {next : String}, next ∈ pending →
      (next ∈ Document.without path pending → next ∈ paths) → next ∈ path :: paths := by
    intro next hnext hlater
    by_cases hsame : next = path
    · exact hsame ▸ List.mem_cons_self
    · exact List.mem_cons_of_mem _ (hlater (Document.mem_without.2 ⟨hnext, hsame⟩))
  constructor
  case nodup =>
    refine List.nodup_cons.2 ⟨fun hmem => ?_, h.nodup⟩
    exact (Document.mem_without.1 (h.subset hmem)).2 rfl
  case subset =>
    exact List.cons_subset.2 ⟨hpath, List.Subset.trans h.subset (UploadStep.without_subset path)⟩
  case followed =>
    intro next hnext hpending
    obtain hsame | hrest := List.mem_cons.1 hnext
    · cases hsame
      exact List.mem_cons_self
    · exact hkept hpending (h.followed next (List.mem_append_right _ hrest))
  case closed =>
    refine List.forall_mem_cons.2 ⟨⟨resolved, hresolved, fun next hnext hpending => ?_⟩, ?_⟩
    · exact hkept hpending (h.followed next (List.mem_append_left _ hnext))
    · intro other hother
      obtain ⟨target, htarget, hsteps⟩ := h.closed other hother
      exact ⟨target, htarget, fun next hnext hpending => hkept hpending (hsteps next hnext)⟩
  case inherited =>
    intro node hsteps
    obtain ⟨hfirst, hrest⟩ := List.forall_mem_cons.1 hsteps
    cases hfirst with
    | follow hinherits =>
      refine List.forall_mem_cons.2 ⟨hinherits, h.inherited node ?_⟩
      refine List.forall_mem_append.2 ⟨fun next hnext => ?_, hrest⟩
      exact hinherits.isReached_resolved hresolved hnext

theorem skip (hpath : path ∉ pending) (h : Visits d pending rest paths) :
    Visits d pending (.follow path :: rest) paths where
  nodup := h.nodup
  subset := h.subset
  followed next hnext hpending := by
    obtain hsame | hrest := List.mem_cons.1 hnext
    · cases hsame
      exact absurd hpending hpath
    · exact h.followed next hrest hpending
  closed := h.closed
  inherited node hsteps := h.inherited node (List.forall_mem_cons.1 hsteps).2

theorem properties (ps : List (String × SchemaNode)) (h : Visits d pending rest paths) :
    Visits d pending (.properties ps :: rest) paths where
  nodup := h.nodup
  subset := h.subset
  followed next hnext hpending := by
    obtain hsame | hrest := List.mem_cons.1 hnext
    · cases hsame
    · exact h.followed next hrest hpending
  closed := h.closed
  inherited node hsteps := h.inherited node (List.forall_mem_cons.1 hsteps).2

end Visits

/-- The titles that a search finds are the keys of uploads in its steps, and of those behind each of
the references that it follows. -/
theorem exists_visits (form : SchemaNode) {steps : List UploadStep} {fields : List FileField}
    (h : collectFiles d pending steps = .ok fields) : ∃ paths, Visits d pending steps paths ∧
      (fields.map FileField.title).Perm (uploadKeys d (steps.flatMap UploadStep.own) ++
        paths.flatMap fun path => uploadKeys d (propertiesAt d form (some path))) := by
  fun_induction collectFiles d pending steps generalizing fields with
  | case1 =>
    cases h
    exact ⟨[], .nil, List.Perm.refl _⟩
  | case2 pending path rest hpath ih =>
    obtain ⟨resolved, hresolved, hrest⟩ := bind_eq_ok.1 h
    obtain ⟨paths, hvisits, hperm⟩ := ih resolved hrest
    refine ⟨path :: paths, hvisits.follow hpath hresolved, hperm.trans ?_⟩
    rw [List.flatMap_append, uploadKeys_append, List.flatMap_cons, List.flatMap_cons,
      propertiesAt_some hresolved, ← List.append_assoc]
    exact List.perm_append_comm.append_right _
  | case3 pending path rest hpath ih =>
    obtain ⟨paths, hvisits, hperm⟩ := ih h
    exact ⟨paths, hvisits.skip hpath, hperm⟩
  | case4 pending ps rest ih =>
    obtain ⟨found, hfound, h⟩ := bind_eq_ok.1 h
    obtain ⟨more, hmore, h⟩ := bind_eq_ok.1 h
    cases h
    obtain ⟨paths, hvisits, hperm⟩ := ih hmore
    refine ⟨paths, hvisits.properties ps, ?_⟩
    rw [List.map_append, map_title_propertyFiles hfound, List.flatMap_cons, uploadKeys_append,
      List.append_assoc]
    exact hperm.append_left _

theorem Visits.mem_of_inherits {paths : List String}
    (h : Visits d pending (uploadSteps form) paths) (htree : d.tree.references ⊆ pending)
    (hform : ∀ path, .follow path ∈ uploadSteps form → path ∈ pending) {n : SchemaNode}
    (hn : Inherits d form n) : ∀ path, .follow path ∈ uploadSteps n →
      path ∈ pending ∧ path ∈ paths := by
  induction hn with
  | self => exact fun path hpath => ⟨hform path hpath, h.followed path hpath (hform path hpath)⟩
  | @member n m s _ hs hm ih =>
    intro path hpath
    have hstep : .follow path ∈ uploadSteps (.schema s) :=
      mem_uploadSteps_schema.2 (.inl ⟨m, hm, hpath⟩)
    have hpending := mem_of_resolveSchema hs htree (fun path hpath => (ih path hpath).1) hstep
    cases n with
    | reference reference =>
      have hreference : .follow reference ∈ uploadSteps (.reference reference) :=
        List.mem_singleton_self _
      obtain ⟨resolved, hresolved, hnext⟩ := h.closed reference (ih reference hreference).2
      cases hs.symm.trans hresolved
      exact ⟨hpending, hnext path hstep hpending⟩
    | schema s' =>
      cases hs
      exact ih path hstep
    | _ => cases hs

end Visits

theorem exists_places {fields : List FileField} (h : schemaFiles d form = .ok fields) :
    ∃ places : List (Option String), places.Nodup ∧
      (∀ place, place ∈ places ↔ IsPlace d form place) ∧
      (fields.map FileField.title).Perm
        (places.flatMap fun place => uploadKeys d (propertiesAt d form place)) := by
  obtain ⟨paths, hvisits, hperm⟩ := exists_visits form h
  have hfollowed : ∀ path, Inherits d form (.reference path) → path ∈ paths := by
    intro path hinherits
    have hform : ∀ path, .follow path ∈ uploadSteps form →
        path ∈ (uploadSteps form).filterMap UploadStep.reference? ++ d.tree.references :=
      fun path hpath => List.mem_append_left _ (List.mem_filterMap.2 ⟨_, hpath, rfl⟩)
    exact (hvisits.mem_of_inherits (List.subset_append_right _ _) hform hinherits path
      (List.mem_singleton_self _)).2
  have hown : (uploadSteps form).flatMap UploadStep.own = propertiesIn form := by
    cases form <;> rfl
  refine ⟨none :: paths.map some, ?_, ?_, ?_⟩
  · refine List.nodup_cons.2 ⟨by simp, ?_⟩
    exact hvisits.nodup.map fun _ _ => Option.some.inj
  · rintro (_ | path)
    · exact iff_of_true List.mem_cons_self trivial
    · have hmem : some path ∈ none :: paths.map some ↔ path ∈ paths := by simp
      rw [hmem]
      constructor
      · exact hvisits.inherited form (fun step hstep => Inherits.self.isReached hstep) path
      · exact hfollowed path
  · rw [List.flatMap_cons, List.flatMap_map, propertiesAt, ← hown]
    exact hperm

theorem nodup_titles_iff {fields : List FileField} (h : schemaFiles d form = .ok fields) :
    (fields.map FileField.title).Nodup ↔ FindsOnce d form := by
  obtain ⟨places, hnodup, hplaces, hperm⟩ := exists_places h
  have hsymm : Std.Symm (Function.onFun List.Disjoint fun place =>
      uploadKeys d (propertiesAt d form place)) := ⟨fun _ _ => List.disjoint_symm⟩
  rw [hperm.nodup_iff, List.nodup_flatMap]
  constructor
  · rintro ⟨hwithin, hacross⟩
    constructor
    case within => exact fun place hplace => hwithin place ((hplaces place).2 hplace)
    case across =>
      intro place place' hplace hplace' hne
      exact hacross.forall ((hplaces place).2 hplace) ((hplaces place').2 hplace') hne
  · rintro ⟨hwithin, hacross⟩
    refine ⟨fun place hplace => hwithin place ((hplaces place).1 hplace), ?_⟩
    exact hnodup.pairwise_of_forall_ne fun place hplace place' hplace' =>
      hacross place place' ((hplaces place).1 hplace) ((hplaces place').1 hplace')

end ApiClient.Endpoint
