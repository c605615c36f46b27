import ApiClient.Proofs.UploadFields

namespace ApiClient.Endpoint

/-- The nodes that a node has its properties from: the node itself, and the members of `allOf` of
what such a node resolves to. -/
inductive Inherits (d : Document) (node : SchemaNode) : SchemaNode → Prop where
  | self : Inherits d node node
  | member {n m : SchemaNode} {s : Schema} (hn : Inherits d node n)
      (hs : d.resolveSchema n = .ok (.schema s)) (hm : m ∈ s.allOf) : Inherits d node m

structure Searchable (d : Document) (node : SchemaNode) : Prop where
  self : ∃ resolved, d.resolveSchema node = .ok resolved
  properties : ∀ s, d.resolveSchema node = .ok (.schema s) →
    ∀ p ∈ s.properties.getD [], ∃ resolved, d.resolveSchema p.2 = .ok resolved

variable {d : Document} {node : SchemaNode} {pending : List String}

section Fields

theorem fileField?_eq_some {title key : String} {multiple : Bool} :
    fileField? title node = some ⟨key, multiple⟩ ↔ title = key ∧ ∃ q, node = .schema q ∧
      if multiple then q.isBinary = false ∧ q.isBinaryArray = true else q.isBinary = true := by
  cases node with
  | schema q =>
    cases hbinary : q.isBinary with
    | true => cases multiple <;> simp [fileField?, hbinary]
    | false =>
      cases harray : q.isBinaryArray <;> cases multiple <;> simp [fileField?, hbinary, harray]
  | _ => simp [fileField?]

theorem isFileOf_iff {ps : List (String × SchemaNode)} {key : String} {multiple : Bool} :
    IsFileOf d ps ⟨key, multiple⟩ ↔ ∃ p, (key, p) ∈ ps ∧ ∃ q, d.resolveSchema p = .ok (.schema q) ∧
      if multiple then q.isBinary = false ∧ q.isBinaryArray = true else q.isBinary = true := by
  constructor
  · rintro ⟨⟨title, p⟩, hp, resolved, hresolved, hfile⟩
    obtain ⟨rfl, q, rfl, hq⟩ := fileField?_eq_some.1 hfile
    exact ⟨p, hp, q, hresolved, hq⟩
  · rintro ⟨p, hp, q, hresolved, hq⟩
    exact ⟨(key, p), hp, .schema q, hresolved, fileField?_eq_some.2 ⟨rfl, q, rfl, hq⟩⟩

theorem Inherits.head {m n : SchemaNode} {s : Schema} (h : Inherits d m n)
    (hs : d.resolveSchema node = .ok (.schema s)) (hm : m ∈ s.allOf) : Inherits d node n := by
  induction h with
  | self => exact .member .self hs hm
  | member _ hs' hm' ih => exact .member ih hs' hm'

theorem hasUpload_iff_inherits {field : FileField} : HasUpload d node field ↔
    ∃ n s, Inherits d node n ∧ d.resolveSchema n = .ok (.schema s) ∧
      IsFileOf d (s.properties.getD []) field := by
  constructor
  · intro h
    induction h with
    | @property node s _ hs hfile => exact ⟨node, s, .self, hs, hfile⟩
    | member hs hm _ ih =>
      obtain ⟨n, s', hn, hs', hfile⟩ := ih
      exact ⟨n, s', hn.head hs hm, hs', hfile⟩
  · rintro ⟨n, s, hn, hs, hfile⟩
    have hupload : HasUpload d n field := .property hs hfile
    clear hs hfile
    induction hn with
    | self => exact hupload
    | member _ hs hm ih => exact ih (.member hs hm hupload)

end Fields

section Reached

/-- A step that stands for an inherited node. -/
inductive UploadStep.IsReached (d : Document) (node : SchemaNode) : UploadStep → Prop where
  | follow {path : String} (h : Inherits d node (.reference path)) : IsReached d node (.follow path)
  | properties {n : SchemaNode} {s : Schema} (h : Inherits d node n)
      (hs : d.resolveSchema n = .ok (.schema s)) :
      IsReached d node (.properties (s.properties.getD []))

theorem Inherits.isReached {n : SchemaNode} (h : Inherits d node n) {step : UploadStep}
    (hstep : step ∈ uploadSteps n) : step.IsReached d node := by
  refine mem_uploadSteps_induction (motive := fun n => Inherits d node n → step.IsReached d node)
    ?follow ?properties ?member n hstep h
  case follow =>
    rintro path rfl hpath
    exact .follow hpath
  case properties =>
    rintro s rfl hs
    exact .properties hs rfl
  case member => exact fun s m hm ih hs => ih (.member hs rfl hm)

theorem Inherits.isReached_resolved {n resolved : SchemaNode} (h : Inherits d node n)
    (hn : d.resolveSchema n = .ok resolved) {step : UploadStep}
    (hstep : step ∈ resolvedSteps resolved) : step.IsReached d node := by
  cases resolved with
  | schema s =>
    obtain ⟨m, hm, hstep⟩ | rfl := mem_uploadSteps_schema.1 hstep
    · exact (h.member hn hm).isReached hstep
    · exact .properties h hn
  | _ => cases hstep

theorem exists_collectFiles_of_searchable (h : ∀ n, Inherits d node n → Searchable d n)
    {steps : List UploadStep} (hsteps : ∀ step ∈ steps, step.IsReached d node) :
    ∃ fields, collectFiles d pending steps = .ok fields := by
  fun_induction collectFiles d pending steps with
  | case1 => exact ⟨[], rfl⟩
  | case2 pending path rest hpath ih =>
    obtain ⟨hstep, hrest⟩ := List.forall_mem_cons.1 hsteps
    cases hstep with
    | follow hinherits =>
      refine exists_bind_ok (h _ hinherits).self fun resolved hresolved => ?_
      refine ih resolved (List.forall_mem_append.2 ⟨fun next hnext => ?_, hrest⟩)
      exact hinherits.isReached_resolved hresolved hnext
  | case3 pending path rest hpath ih => exact ih (List.forall_mem_cons.1 hsteps).2
  | case4 pending ps rest ih =>
    obtain ⟨hstep, hrest⟩ := List.forall_mem_cons.1 hsteps
    cases hstep with
    | @properties n s hinherits hs =>
      have hproperties := (h n hinherits).properties s hs
      refine exists_bind_ok ?_ fun fields _ => exists_bind_ok (ih hrest) fun more _ => ⟨_, rfl⟩
      refine exists_bind_ok (exists_mapM_ok fun p hp => ?_) fun fields _ => ⟨_, rfl⟩
      exact exists_bind_ok (hproperties p hp) fun resolved _ => ⟨_, rfl⟩

end Reached

section Settled

/-- A step is settled if its properties resolve, or if its reference is among those that are. -/
def UploadStep.Settled (d : Document) (settled : String → Prop) : UploadStep → Prop
  | .follow path => settled path
  | .properties ps => ∀ p ∈ ps, ∃ resolved, d.resolveSchema p.2 = .ok resolved

theorem UploadStep.Settled.or_eq {settled : String → Prop} {step : UploadStep}
    (h : step.Settled d settled) (path : String) :
    step.Settled d fun r => settled r ∨ r = path := by
  cases step with
  | follow r => exact .inl h
  | properties ps => exact h

def IsClosed (d : Document) (pending : List String) (settled : String → Prop) : Prop :=
  ∀ path, settled path → path ∈ pending → ∃ resolved,
    d.resolveSchema (.reference path) = .ok resolved ∧
      ∀ next ∈ resolvedSteps resolved, next.Settled d settled

/-- A successful search settles its steps, and with a pending reference the steps behind it. -/
theorem exists_settled_of_collectFiles {steps : List UploadStep} {fields : List FileField}
    (h : collectFiles d pending steps = .ok fields) : ∃ settled : String → Prop,
      (∀ step ∈ steps, step.Settled d settled) ∧ IsClosed d pending settled := by
  fun_induction collectFiles d pending steps generalizing fields with
  | case1 => exact ⟨fun _ => False, by simp, fun _ hpath => hpath.elim⟩
  | case2 pending path rest hpath ih =>
    obtain ⟨resolved, hresolved, hrest⟩ := bind_eq_ok.1 h
    obtain ⟨settled, hsteps, hclosed⟩ := ih resolved hrest
    obtain ⟨hnext, hrest⟩ := List.forall_mem_append.1 hsteps
    refine ⟨fun r => settled r ∨ r = path, ?_, ?_⟩
    · exact List.forall_mem_cons.2 ⟨.inr rfl, fun step hstep => (hrest step hstep).or_eq path⟩
    · intro r hr hmem
      by_cases hsame : r = path
      · rw [hsame]
        exact ⟨resolved, hresolved, fun next hmem => (hnext next hmem).or_eq path⟩
      · obtain ⟨target, htarget, hsteps⟩ :=
          hclosed r (hr.resolve_right hsame) (Document.mem_without.2 ⟨hmem, hsame⟩)
        exact ⟨target, htarget, fun next hmem => (hsteps next hmem).or_eq path⟩
  | case3 pending path rest hpath ih =>
    -- the reference was followed before, so nothing is asked of it here
    obtain ⟨settled, hsteps, hclosed⟩ := ih h
    refine ⟨fun r => settled r ∨ r = path, ?_, ?_⟩
    · exact List.forall_mem_cons.2 ⟨.inr rfl, fun step hstep => (hsteps step hstep).or_eq path⟩
    · rintro r (hr | rfl) hmem
      · obtain ⟨target, htarget, hsteps⟩ := hclosed r hr hmem
        exact ⟨target, htarget, fun next hmem => (hsteps next hmem).or_eq path⟩
      · exact absurd hmem hpath
  | case4 pending ps rest ih =>
    obtain ⟨found, hfound, h⟩ := bind_eq_ok.1 h
    obtain ⟨more, hmore, -⟩ := bind_eq_ok.1 h
    obtain ⟨files, hfiles, -⟩ := bind_eq_ok.1 hfound
    obtain ⟨settled, hsteps, hclosed⟩ := ih hmore
    refine ⟨settled, List.forall_mem_cons.2 ⟨fun p hp => ?_, hsteps⟩, hclosed⟩
    obtain ⟨file, -, hfile⟩ := exists_of_forall₂_left (forall₂_of_mapM hfiles) hp
    obtain ⟨resolved, hresolved, -⟩ := bind_eq_ok.1 hfile
    exact ⟨resolved, hresolved⟩

variable {settled : String → Prop}

theorem settled_of_resolveSchema {n : SchemaNode} {s : Schema}
    (hclosed : IsClosed d pending settled)
    (hn : ∀ step ∈ uploadSteps n, step.Settled d settled)
    (hpending : ∀ path, .follow path ∈ uploadSteps n → path ∈ pending)
    (hs : d.resolveSchema n = .ok (.schema s)) :
    ∀ step ∈ uploadSteps (.schema s), step.Settled d settled := by
  cases n with
  | reference path =>
    have hpath : .follow path ∈ uploadSteps (.reference path) := List.mem_singleton_self _
    obtain ⟨resolved, hresolved, hnext⟩ := hclosed path (hn _ hpath) (hpending path hpath)
    cases hs.symm.trans hresolved
    exact hnext
  | schema s' =>
    cases hs
    exact hn
  | _ => cases hs

theorem Inherits.isSettled {n : SchemaNode} (h : Inherits d node n)
    (htree : d.tree.references ⊆ pending)
    (hclosed : IsClosed d pending settled)
    (hsteps : ∀ step ∈ uploadSteps node, step.Settled d settled)
    (hpending : ∀ path, .follow path ∈ uploadSteps node → path ∈ pending) :
    (∀ step ∈ uploadSteps n, step.Settled d settled) ∧
      ∀ path, .follow path ∈ uploadSteps n → path ∈ pending := by
  induction h with
  | self => exact ⟨hsteps, hpending⟩
  | member _ hs hm ih =>
    have hmember {step : UploadStep} (hstep : step ∈ uploadSteps _) :
        step ∈ uploadSteps (.schema _) := mem_uploadSteps_schema.2 (.inl ⟨_, hm, hstep⟩)
    exact ⟨fun step hstep => settled_of_resolveSchema hclosed ih.1 ih.2 hs step (hmember hstep),
      fun path hpath => mem_of_resolveSchema hs htree ih.2 (hmember hpath)⟩

theorem searchable_of_settled {n : SchemaNode}
    (hclosed : IsClosed d pending settled)
    (hn : ∀ step ∈ uploadSteps n, step.Settled d settled)
    (hpending : ∀ path, .follow path ∈ uploadSteps n → path ∈ pending) : Searchable d n where
  self := by
    cases n with
    | reference path =>
      have hpath : .follow path ∈ uploadSteps (.reference path) := List.mem_singleton_self _
      obtain ⟨resolved, hresolved, -⟩ := hclosed path (hn _ hpath) (hpending path hpath)
      exact ⟨resolved, hresolved⟩
    | _ => exact ⟨_, rfl⟩
  properties s hs := settled_of_resolveSchema hclosed hn hpending hs
    (.properties (s.properties.getD [])) (mem_uploadSteps_schema.2 (.inr rfl))

end Settled

/-- The search for file fields succeeds if and only if all inherited nodes resolve, and it reports
exactly the properties of inherited schemas that are binary, or else arrays of binaries. -/
theorem schemaFiles_spec (d : Document) (node : SchemaNode) :
    ((∃ fields, schemaFiles d node = .ok fields) ↔ ∀ n, Inherits d node n → Searchable d n) ∧
      ∀ fields, schemaFiles d node = .ok fields → ∀ key multiple, ⟨key, multiple⟩ ∈ fields ↔
        ∃ n s, Inherits d node n ∧ d.resolveSchema n = .ok (.schema s) ∧
          ∃ p, (key, p) ∈ s.properties.getD [] ∧ ∃ q, d.resolveSchema p = .ok (.schema q) ∧
            if multiple then q.isBinary = false ∧ q.isBinaryArray = true
            else q.isBinary = true := by
  refine ⟨⟨?_, fun h => ?_⟩, fun fields hfields key multiple => ?_⟩
  · rintro ⟨fields, hfields⟩ n hn
    obtain ⟨settled, hsteps, hclosed⟩ := exists_settled_of_collectFiles hfields
    have hpending (path : String) (hpath : .follow path ∈ uploadSteps node) :
        path ∈ (uploadSteps node).filterMap UploadStep.reference? ++ d.tree.references :=
      List.mem_append_left _ (List.mem_filterMap.2 ⟨_, hpath, rfl⟩)
    obtain ⟨hstepsN, hpendingN⟩ :=
      hn.isSettled (List.subset_append_right _ _) hclosed hsteps hpending
    exact searchable_of_settled hclosed hstepsN hpendingN
  · exact exists_collectFiles_of_searchable h fun step hstep => Inherits.self.isReached hstep
  · rw [mem_schemaFiles hfields, hasUpload_iff_inherits]
    simp only [isFileOf_iff]

def inheritingSchema (key : String) (file : SchemaNode) (base : String) : Schema :=
  { Schema.ofType "object" with
    properties := some [(key, file)]
    allOf := [.reference base] }

def albumPath : String := "#/components/schemas/Album"

def photoPath : String := "#/components/schemas/Photo"

def binarySchema : Schema :=
  { Schema.ofType "string" with format := some "binary" }

def scansSchema : Schema :=
  { Schema.ofType "array" with items := some (.single (.schema binarySchema)) }

/-- Albums and photos inherit from each other. -/
def albumSpec : ApiSpec :=
  ⟨none, none, .empty, [], some ⟨[
    ("Album", .schema (inheritingSchema "scans" (.schema scansSchema) photoPath)),
    ("Photo", .schema (inheritingSchema "photo" (.schema binarySchema) albumPath))], [], [], []⟩⟩

def albumDocument : Document :=
  ⟨albumSpec.toJson, albumSpec, rfl⟩

theorem resolveSchema_album : albumDocument.resolveSchema (.reference albumPath) =
    .ok (.schema (inheritingSchema "scans" (.schema scansSchema) photoPath)) :=
  Document.resolveSchema_of_lookup rfl rfl rfl

theorem resolveSchema_photo : albumDocument.resolveSchema (.reference photoPath) =
    .ok (.schema (inheritingSchema "photo" (.schema binarySchema) albumPath)) :=
  Document.resolveSchema_of_lookup rfl rfl rfl

theorem inherits_album {n : SchemaNode} (h : Inherits albumDocument (.reference albumPath) n) :
    n = .reference albumPath ∨ n = .reference photoPath := by
  induction h with
  | self => exact .inl rfl
  | member _ hs hm ih =>
    obtain rfl | rfl := ih
    · cases resolveSchema_album.symm.trans hs
      exact .inr (List.mem_singleton.1 hm)
    · cases resolveSchema_photo.symm.trans hs
      exact .inl (List.mem_singleton.1 hm)

theorem searchable_of_property {path key base : String} {s : Schema}
    (h : albumDocument.resolveSchema (.reference path) =
      .ok (.schema (inheritingSchema key (.schema s) base))) :
    Searchable albumDocument (.reference path) where
  self := ⟨_, h⟩
  properties s' hs' := by
    cases h.symm.trans hs'
    exact List.forall_mem_singleton.2 ⟨.schema s, rfl⟩

theorem schemaFiles_album : ∃ fields,
    schemaFiles albumDocument (.reference albumPath) = .ok fields ∧
      ⟨"scans", true⟩ ∈ fields ∧ ⟨"photo", false⟩ ∈ fields := by
  obtain ⟨hsuccess, hfields⟩ := schemaFiles_spec albumDocument (.reference albumPath)
  have hsearchable : ∀ n, Inherits albumDocument (.reference albumPath) n →
      Searchable albumDocument n := by
    intro n hn
    obtain rfl | rfl := inherits_album hn
    · exact searchable_of_property resolveSchema_album
    · exact searchable_of_property resolveSchema_photo
  obtain ⟨fields, h⟩ := hsuccess.2 hsearchable
  refine ⟨fields, h, (hfields fields h _ _).2 ?scans, (hfields fields h _ _).2 ?photo⟩
  case scans =>
    exact ⟨_, _, .self, resolveSchema_album, _, List.mem_singleton_self _, scansSchema, rfl,
      rfl, rfl⟩
  case photo =>
    have hphoto : Inherits albumDocument (.reference albumPath) (.reference photoPath) :=
      .member .self resolveSchema_album (List.mem_singleton_self _)
    exact ⟨_, _, hphoto, resolveSchema_photo, _, List.mem_singleton_self _, binarySchema, rfl, rfl⟩

end ApiClient.Endpoint
