import ApiClient.Proofs.Census
import ApiClient.Proofs.Identifiers
import ApiClient.Proofs.PathVariables
import ApiClient.Render.Report

namespace ApiClient

namespace Render

def lastTexts : Sink (List (String × String)) := fun texts file text =>
  .ok (insertEntry file text texts)

section Sinks

variable {α : Type} (sink : Sink α)

theorem emitAll_append (state : α) (l m : List (String × Except Failure String)) :
    (emitAll sink state (l ++ m)).2 = (emitAll sink (emitAll sink state l).2 m).2 := by
  induction l generalizing state with
  | nil => rfl
  | cons entry l ih => exact ih _

end Sinks

variable {texts : List (String × String)} {file : String}

theorem lookup_emit (f : String) (rendered : Except Failure String) :
    (emit lastTexts texts f rendered).2.lookup file =
      if file = f then rendered.toOption.or (texts.lookup file) else texts.lookup file := by
  cases rendered with
  | error cause => simp [emit, Except.bind, Except.toOption]
  | ok text => exact lookup_insertEntry f file text texts

theorem lookup_emitAll_of_notMem {files : List (String × Except Failure String)}
    (h : file ∉ files.map Prod.fst) (texts : List (String × String)) :
    (emitAll lastTexts texts files).2.lookup file = texts.lookup file := by
  induction files generalizing texts with
  | nil => rfl
  | cons entry rest ih =>
    rw [List.map_cons, List.mem_cons, not_or] at h
    have hrest := ih h.2 (emit lastTexts texts entry.1 entry.2).2
    rw [lookup_emit, if_neg h.1] at hrest
    exact hrest

theorem lookup_emitAll_of_mem {files : List (String × Except Failure String)} {text : String}
    (hmem : (file, .ok text) ∈ files)
    (hsame : ∀ rendered, (file, rendered) ∈ files → rendered = .ok text) :
    (emitAll lastTexts texts files).2.lookup file = some text := by
  induction files generalizing texts with
  | nil => cases hmem
  | cons entry rest ih =>
    have hrest : ∀ rendered, (file, rendered) ∈ rest → rendered = .ok text :=
      fun rendered h => hsame rendered (List.mem_cons_of_mem _ h)
    by_cases hlater : (file, .ok text) ∈ rest
    · exact ih hlater hrest
    · have hentry : entry = (file, .ok text) :=
        ((List.mem_cons.1 hmem).resolve_right hlater).symm
      subst hentry
      have hgone : file ∉ rest.map Prod.fst := by
        intro hin
        obtain ⟨⟨_, rendered⟩, hentry, rfl⟩ := List.mem_map.1 hin
        exact hlater (hrest rendered hentry ▸ hentry)
      have hkept := lookup_emitAll_of_notMem hgone (emit lastTexts texts file (.ok text)).2
      rw [lookup_emit, if_pos rfl] at hkept
      exact hkept

/-- The text that is found under a file name once a client is written over earlier texts. -/
def stored (config : Config) (c : Client) (earlier : List (String × String)) (file : String) :
    Option String :=
  (renderTo config c lastTexts earlier).2.lookup file

variable {config : Config} {c : Client} {earlier : List (String × String)}

theorem stored_indexFile : stored config c earlier indexFile = some (index c) := by
  rw [stored, renderTo, files]
  simp only [emitAll_append]
  exact (lookup_emit indexFile (.ok (index c))).trans (if_pos rfl)

theorem mem_files {file : String} {rendered : Except Failure String} :
    (file, rendered) ∈ files config c ↔
      (file = typingsFile ∧ rendered = .ok (typings config.nullable c)) ∨
      (∃ u ∈ c.services, serviceFile u = file ∧
        service config.nullable config.requestLibPath u = rendered) ∨
      (file = indexFile ∧ rendered = .ok (index c)) := by
  simp [files, List.mem_append, List.mem_map]

theorem serviceFile_inj {u v : ServiceUnit} :
    serviceFile u = serviceFile v ↔ u.fileName = v.fileName := by
  rw [← String.toList_inj, serviceFile, serviceFile, String.toList_append, String.toList_append,
    List.append_left_inj, String.toList_inj]

theorem prefix_append {start : List Char} {s : String} (h : start <+: s.toList) (t : String) :
    start <+: (s ++ t).toList := by
  rw [String.toList_append]
  exact h.trans (List.prefix_append _ _)

theorem service_start {nullable : Bool} {requestLibPath text : String} {u : ServiceUnit}
    (h : service nullable requestLibPath u = .ok text) :
    "// @ts-ignore\n/* eslint-disable */\nimport \x7b request \x7d from '".toList <+:
      text.toList := by
  obtain ⟨calls, -, htext⟩ := bind_eq_ok.1 h
  cases htext
  iterate 3 apply prefix_append
  exact List.prefix_refl _

theorem index_start (c : Client) :
    "// @ts-ignore\n/* eslint-disable */\n// API ".toList <+: (index c).toList := by
  unfold index
  iterate 6 apply prefix_append
  exact List.prefix_refl _

theorem service_ne_index {nullable : Bool} {requestLibPath text : String} {u : ServiceUnit}
    (h : service nullable requestLibPath u = .ok text) (c : Client) : text ≠ index c := by
  intro heq
  have hservice := service_start h
  rw [heq] at hservice
  obtain hstart | hstart := List.prefix_or_prefix_of_prefix hservice (index_start c)
  · revert hstart
    decide
  · revert hstart
    decide

end Render

namespace Run

variable [Text.Transliteration] {r : Run} {c : Client}

omit [Text.Transliteration] in
theorem fileName_of_none (hnone : r.overrides = .none) (index : Nat) (tag : String) :
    r.fileName index tag =
      if (Naming.replaceDot tag).isEmpty then "api" ++ toString index
      else Naming.replaceDot tag := by
  rw [fileName, hnone]
  rfl

omit [Text.Transliteration] in
theorem isWord_fileName (hnone : r.overrides = .none) (index : Nat) (tag : String) :
    ∀ ch ∈ (r.fileName index tag).toList, Naming.isWord ch = true := by
  rw [fileName_of_none hnone]
  split
  · intro ch hch
    rw [String.toList_append, List.mem_append] at hch
    obtain hch | hch := hch
    · have hapi : "api".toList.all Naming.isWord = true := by decide
      exact List.all_eq_true.1 hapi ch hch
    · simp [Naming.isWord, Char.isAlphanum, Text.isDigit_of_mem_toString hch]
  · rw [Naming.replaceDot, String.toList_ofList]
    exact Naming.isWord_onlyWords _

theorem exists_fileName (h : r.client = .ok c) {u : ServiceUnit} (hu : u ∈ c.services) :
    ∃ index, u.fileName = r.fileName index u.tag := by
  obtain ⟨calls, interfaces, -, -, hservices, -, -⟩ := client_eq_ok h
  rw [hservices, serviceUnits] at hu
  obtain ⟨⟨index, tag, t⟩, -, rfl⟩ := List.mem_map.1 hu
  exact ⟨index, rfl⟩

theorem serviceFile_ne_typingsFile (hnone : r.overrides = .none) (h : r.client = .ok c)
    {u : ServiceUnit} (hu : u ∈ c.services) : Render.serviceFile u ≠ Render.typingsFile := by
  intro heq
  obtain ⟨index, hname⟩ := exists_fileName h hu
  have htypings : u.fileName.toList ++ ".ts".toList = "typings.d".toList ++ ".ts".toList := by
    rw [← String.toList_append]
    exact congrArg String.toList heq
  have hdot := isWord_fileName hnone index u.tag '.'
  rw [← hname, List.append_cancel_right htypings] at hdot
  exact absurd (hdot (by decide)) (by decide)

theorem exists_service (h : r.client = .ok c) {u : ServiceUnit} (hu : u ∈ c.services)
    (nullable : Bool) (requestLibPath : String) :
    ∃ text, Render.service nullable requestLibPath u = .ok text := by
  have hcalls : ∀ call ∈ u.operations, ∃ text, Render.callText nullable call = .ok text := by
    intro call hcall
    obtain ⟨e, -, -, part, ⟨used, names, shape, description, -, -, rfl⟩, rfl⟩ :=
      exists_isPartOf h hu hcall
    have halias : ∀ p ∈ Path.withAliases 0 shape.params.groups.path,
        ∃ text, Render.boundVariable p = .ok text := by
      intro p hp
      obtain ⟨i, hi⟩ := List.mem_iff_getElem?.1 hp
      rw [Render.boundVariable, Path.aliasName_withAliases hi]
      exact ⟨_, rfl⟩
    obtain ⟨bound, hbound⟩ := exists_mapM_ok halias
    have hbindings : ∃ text, Render.bindings (r.callPart u.tag e shape
        (used.take (r.functionName e)).1 description names).1.call = .ok text := by
      rw [Render.bindings]
      split
      · exact ⟨_, rfl⟩
      · exact ⟨_, bind_eq_ok.2 ⟨bound, hbound, rfl⟩⟩
    obtain ⟨text, htext⟩ := hbindings
    exact ⟨_, bind_eq_ok.2 ⟨text, htext, rfl⟩⟩
  obtain ⟨texts, htexts⟩ := exists_mapM_ok hcalls
  exact ⟨_, bind_eq_ok.2 ⟨texts, htexts, rfl⟩⟩

/-- The typings and the index are always found under their names. Every unit is found under its own
exactly when no unit has the name of the index and units of one name have one text. -/
theorem files_stay_iff (r : Run) (c : Client) (hnone : r.overrides = .none) (h : r.client = .ok c)
    (config : Config) (earlier : List (String × String)) :
    Render.stored config c earlier Render.typingsFile =
        some (Render.typings config.nullable c) ∧
      Render.stored config c earlier Render.indexFile = some (Render.index c) ∧
      ((∀ u ∈ c.services, ∃ text,
          Render.service config.nullable config.requestLibPath u = .ok text ∧
          Render.stored config c earlier (Render.serviceFile u) = some text) ↔
        (∀ u ∈ c.services, u.fileName ≠ "index") ∧
        ∀ u ∈ c.services, ∀ v ∈ c.services, u.fileName = v.fileName →
          Render.service config.nullable config.requestLibPath u =
            Render.service config.nullable config.requestLibPath v) := by
  have hindex : ∀ u : ServiceUnit, Render.serviceFile u = Render.indexFile ↔
      u.fileName = "index" := by
    intro u
    exact Render.serviceFile_inj (v := ⟨"", "index", "", "", []⟩)
  refine ⟨?_, Render.stored_indexFile, ?_, ?_⟩
  · apply Render.lookup_emitAll_of_mem (Render.mem_files.2 (.inl ⟨rfl, rfl⟩))
    intro rendered hmem
    obtain ⟨-, hrendered⟩ | ⟨u, hu, hfile, -⟩ | ⟨hfile, -⟩ := Render.mem_files.1 hmem
    · exact hrendered
    · exact absurd hfile (serviceFile_ne_typingsFile hnone h hu)
    · exact absurd hfile (by decide)
  · intro hstored
    constructor
    · intro u hu hname
      obtain ⟨text, htext, hfound⟩ := hstored u hu
      rw [(hindex u).2 hname, Render.stored_indexFile] at hfound
      exact Render.service_ne_index htext c (Option.some.inj hfound).symm
    · intro u hu v hv hname
      obtain ⟨text, htext, hfound⟩ := hstored u hu
      obtain ⟨text', htext', hfound'⟩ := hstored v hv
      rw [Render.serviceFile_inj.2 hname, hfound'] at hfound
      rw [htext, htext', Option.some.inj hfound]
  · rintro ⟨hfree, hsame⟩ u hu
    obtain ⟨text, htext⟩ := exists_service h hu config.nullable config.requestLibPath
    refine ⟨text, htext, ?_⟩
    apply Render.lookup_emitAll_of_mem (Render.mem_files.2 (.inr (.inl ⟨u, hu, rfl, htext⟩)))
    intro rendered hmem
    obtain ⟨hfile, -⟩ | ⟨v, hv, hfile, hrendered⟩ | ⟨hfile, -⟩ := Render.mem_files.1 hmem
    · exact absurd hfile (serviceFile_ne_typingsFile hnone h hu)
    · rw [← hrendered, ← hsame u hu v hv (Render.serviceFile_inj.1 hfile.symm), htext]
    · exact absurd ((hindex u).1 hfile) (hfree u hu)

end Run

end ApiClient

namespace ApiClient.Run

def tagsTree (tags : List String) : Json :=
  documentTree [("/a", .object [("get", operationTree "list" tags [])])] []

def shelvesRun : Run :=
  .ofTree .default (tagsTree ["pet-store", "user"]) (by decide +kernel)

theorem shelvesRun_files : ∃ c, shelvesRun.client = .ok c ∧
    c.services.map ServiceUnit.fileName = ["petStore", "user"] ∧
    ∀ u ∈ c.services, ∃ text, Render.service false "@umijs/max" u = .ok text ∧
      Render.stored .default c [] (Render.serviceFile u) = some text := by
  obtain ⟨c, hc, hnames⟩ : ∃ c, shelvesRun.client = .ok c ∧
      c.services.map ServiceUnit.fileName = ["petStore", "user"] :=
    exists_ok_of_map (by decide +kernel)
  obtain ⟨-, -, hstay⟩ := files_stay_iff shelvesRun c rfl hc .default []
  refine ⟨c, hc, hnames, hstay.2 ⟨fun u hu hname => ?_, fun u hu v hv hname => ?_⟩⟩
  · have hmem : "index" ∈ c.services.map ServiceUnit.fileName := List.mem_map.2 ⟨u, hu, hname⟩
    rw [hnames] at hmem
    exact absurd hmem (by decide)
  · have hnodup : (c.services.map ServiceUnit.fileName).Nodup := by
      rw [hnames]
      decide
    rw [List.inj_on_of_nodup_map hnodup hu hv hname]

/-- A tag that is named like the index file. -/
def indexRun : Run :=
  .ofTree .default (tagsTree ["index"]) (by decide +kernel)

theorem not_files_stay : ¬ ∀ (r : Run) (c : Client), r.overrides = .none → r.client = .ok c →
    ∀ (config : Config) (earlier : List (String × String)), ∀ u ∈ c.services, ∃ text,
      Render.service config.nullable config.requestLibPath u = .ok text ∧
        Render.stored config c earlier (Render.serviceFile u) = some text := by
  intro stay
  obtain ⟨c, hc, hnames⟩ : ∃ c, indexRun.client = .ok c ∧
      c.services.map ServiceUnit.fileName = ["index"] :=
    exists_ok_of_map (by decide +kernel)
  obtain ⟨u, hu, hname⟩ := exists_unit_of_map hnames
  obtain ⟨text, htext, hfound⟩ := stay indexRun c rfl hc .default [] u hu
  have hfile : Render.serviceFile u = Render.indexFile := by
    rw [Render.serviceFile, hname]
    rfl
  rw [hfile, Render.stored_indexFile] at hfound
  exact Render.service_ne_index htext c (Option.some.inj hfound).symm

end ApiClient.Run
