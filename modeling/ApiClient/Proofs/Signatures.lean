import ApiClient.Proofs.Census
import ApiClient.Proofs.Identifiers
import ApiClient.Proofs.SchemaReferences
import ApiClient.Proofs.Success
import ApiClient.Proofs.UploadPlaces
import ApiClient.Render.Service

namespace ApiClient

namespace Render

structure Parameter where
  name : String
  isOptional : Bool
  type : String
deriving DecidableEq

def Parameter.text (p : Parameter) : String :=
  "\n  " ++ p.name ++ (if p.isOptional then "?" else "") ++ ": " ++ p.type ++ ","

def bodyType (nullable : Bool) : BodyShape → String
  | .properties properties =>
    "\x7b" ++ String.join (properties.map (bodyPropertyText nullable)) ++ "\n  \x7d"
  | .whole type => type

def paramsParameterOf (c : Call) : Parameter :=
  ⟨"params", false, c.typeName⟩

def bodyParameterOf (nullable : Bool) (body : Body) : Parameter :=
  ⟨"body", false, bodyType nullable body.shape⟩

def fileParameterOf (f : FileField) : Parameter :=
  ⟨lowerFirst f.title, true, "File" ++ if f.multiple then "[]" else ""⟩

def optionsParameter : Parameter :=
  ⟨"options", true, "\x7b [key: string]: any \x7d"⟩

def parametersOf (nullable : Bool) (c : Call) : List Parameter :=
  (if c.hasParams then [paramsParameterOf c] else []) ++
    c.body.toList.map (bodyParameterOf nullable) ++ (c.file.getD []).map fileParameterOf ++
    [optionsParameter]

theorem paramsParameter_eq (c : Call) : paramsParameter c =
    String.join ((if c.hasParams then [paramsParameterOf c] else []).map Parameter.text) := by
  cases hhas : c.hasParams <;>
    simp [paramsParameter, hhas, paramsParameterOf, Parameter.text, String.append_assoc]

theorem bodyParameter_eq (nullable : Bool) (c : Call) : bodyParameter nullable c =
    String.join ((c.body.toList.map (bodyParameterOf nullable)).map Parameter.text) := by
  cases hb : c.body with
  | none => simp [bodyParameter, hb]
  | some body =>
    apply String.toList_injective
    cases hshape : body.shape <;>
      simp [bodyParameter, hb, hshape, bodyParameterOf, bodyType, Parameter.text]

theorem fileParameter_eq (f : FileField) : fileParameter f = (fileParameterOf f).text := by
  apply String.toList_injective
  simp [fileParameter, fileParameterOf, Parameter.text]

theorem fileParameters_eq (c : Call) : fileParameters c =
    String.join (((c.file.getD []).map fileParameterOf).map Parameter.text) := by
  rw [fileParameters, List.map_map]
  exact congrArg String.join (List.map_congr_left fun f _ => fileParameter_eq f)

theorem signature_eq (nullable : Bool) (c : Call) : signature nullable c =
    "export async function " ++ c.functionName ++ "(" ++
      String.join ((parametersOf nullable c).map Parameter.text) ++ "\n) \x7b" := by
  have hjoin : String.join ((parametersOf nullable c).map Parameter.text) =
      paramsParameter c ++ bodyParameter nullable c ++ fileParameters c ++
        optionsParameter.text := by
    rw [parametersOf, List.map_append, List.map_append, List.map_append, String.join_append,
      String.join_append, String.join_append, ← paramsParameter_eq, ← bodyParameter_eq,
      ← fileParameters_eq]
    simp
  have hoptions : "\n  options?: \x7b [key: string]: any \x7d,\n) \x7b" =
      optionsParameter.text ++ "\n) \x7b" := by
    decide +kernel
  have hassoc : ∀ start params body files options stop : String,
      start ++ params ++ body ++ files ++ (options ++ stop) =
        start ++ (params ++ body ++ files ++ options) ++ stop := by
    simp [String.append_assoc]
  rw [hjoin, ← hassoc]
  exact congrArg (_ ++ ·) hoptions

end Render

/-- Which characters beyond ASCII a name may start with, and which may follow. -/
structure Alphabet where
  starts : Char → Bool
  follows : Char → Bool

namespace Alphabet

def isStart (a : Alphabet) (c : Char) : Bool :=
  if c.toNat < 128 then NamedType.isIdentifierStart c else a.starts c

def isPart (a : Alphabet) (c : Char) : Bool :=
  if c.toNat < 128 then NamedType.isIdentifierChar c else a.follows c

def IsIdentifier (a : Alphabet) : List Char → Prop
  | [] => False
  | c :: rest => a.isStart c = true ∧ ∀ d ∈ rest, a.isPart d = true

structure Declares (a : Alphabet) (names : List String) : Prop where
  identifiers : ∀ name ∈ names, a.IsIdentifier name.toList
  nodup : names.Nodup

end Alphabet

def Call.fixedNames (c : Call) : List String :=
  (if c.hasParams then ["params"] else []) ++ (if c.body.isSome then ["body"] else []) ++
    ["options"]

def Call.titles (c : Call) : List String :=
  Endpoint.fileTitles c.file

theorem Call.fixedNames_subset (c : Call) : c.fixedNames ⊆ ["params", "body", "options"] := by
  rw [fixedNames]
  cases c.hasParams <;> cases c.body.isSome <;> decide

theorem Call.nodup_fixedNames (c : Call) : c.fixedNames.Nodup := by
  rw [fixedNames]
  cases c.hasParams <;> cases c.body.isSome <;> decide

namespace Render

theorem map_name_parametersOf (nullable : Bool) (c : Call) :
    ((parametersOf nullable c).map Parameter.name).Perm
      (c.fixedNames ++ c.titles.map lowerFirst) := by
  have hparams : (if c.hasParams then [paramsParameterOf c] else []).map Parameter.name =
      if c.hasParams then ["params"] else [] := by
    cases c.hasParams <;> rfl
  have hbody : (c.body.toList.map (bodyParameterOf nullable)).map Parameter.name =
      if c.body.isSome then ["body"] else [] := by
    cases c.body <;> rfl
  have hfiles : ((c.file.getD []).map fileParameterOf).map Parameter.name =
      c.titles.map lowerFirst := by
    rw [Call.titles, Endpoint.fileTitles, List.map_map, List.map_map]
    rfl
  have hcomm : ∀ start files : List String,
      (start ++ files ++ ["options"]).Perm (start ++ ["options"] ++ files) := by
    intro start files
    rw [List.append_assoc, List.append_assoc]
    exact List.perm_append_comm.append_left start
  rw [parametersOf, List.map_append, List.map_append, List.map_append, hparams, hbody, hfiles]
  exact hcomm _ _

end Render

namespace Alphabet

variable {a : Alphabet}

theorem isIdentifier_of_ascii {cs : List Char} (h : Naming.IsIdentifier cs) :
    a.IsIdentifier cs := by
  cases cs with
  | nil => exact absurd rfl h.ne_nil
  | cons c rest =>
    obtain ⟨hc, hrest⟩ := List.forall_mem_cons.1 h.chars
    constructor
    · have hdigit : c.isDigit = false := by simpa [Naming.startsWithDigit] using h.head
      rw [isStart, if_pos hc.toNat_lt]
      simpa [NamedType.isIdentifierStart, Naming.IsIdentifierChar, Char.isAlphanum, hdigit,
        or_assoc] using hc
    · intro d hd
      rw [isPart, if_pos (hrest d hd).toNat_lt]
      simpa [NamedType.isIdentifierChar, Naming.IsIdentifierChar, or_assoc] using hrest d hd

theorem isIdentifier_fixedNames (call : Call) :
    ∀ name ∈ call.fixedNames, a.IsIdentifier name.toList := by
  have hall : ∀ name ∈ ["params", "body", "options"], Naming.IsIdentifier name.toList := by
    decide +kernel
  intro name hname
  exact isIdentifier_of_ascii (hall name (call.fixedNames_subset hname))

end Alphabet

namespace Endpoint

/-- A title that the multipart form of the body has a file field for. -/
def UploadsAs (d : Document) (e : Endpoint) (title : String) : Prop :=
  ∃ form multiple, e.uploadSchema? d = some form ∧ HasUpload d form ⟨title, multiple⟩

section Titles

variable {d : Document} {e : Endpoint} {file : Option (List FileField)}
  (h : e.files d = .ok file)
include h

theorem fileTitles_cases : (e.uploadSchema? d = none ∧ fileTitles file = []) ∨
    ∃ form fields, e.uploadSchema? d = some form ∧ schemaFiles d form = .ok fields ∧
      fileTitles file = fields.map FileField.title := by
  obtain ⟨declared, hdeclared, hcases⟩ := fileTitles_of_files h
  have hschema : e.uploadSchema? d = declared.bind multipartSchema? := by
    rw [uploadSchema?, hdeclared]
    rfl
  rwa [hschema]

theorem mem_fileTitles_iff (title : String) :
    title ∈ fileTitles file ↔ e.UploadsAs d title := by
  obtain ⟨hnone, htitles⟩ | ⟨form, fields, hform, hfields, htitles⟩ := fileTitles_cases h
  · simp [UploadsAs, hnone, htitles]
  · rw [htitles, mem_map_title hfields]
    simp [UploadsAs, hform]

theorem nodup_fileTitles_iff :
    (fileTitles file).Nodup ↔ ∀ form, e.uploadSchema? d = some form → FindsOnce d form := by
  obtain ⟨hnone, htitles⟩ | ⟨form, fields, hform, hfields, htitles⟩ := fileTitles_cases h
  · simp [hnone, htitles]
  · rw [htitles, nodup_titles_iff hfields]
    constructor
    · intro honce form' hform'
      cases hform.symm.trans hform'
      exact honce
    · exact fun honce => honce form hform

end Titles

/-- The uploads of a form have identifiers of their own: none is found twice, no two come to one
name, and none to a name that is no identifier or that has its meaning already. -/
structure NamesFiles (a : Alphabet) (d : Document) (e : Endpoint) (fixed : List String) :
    Prop where
  once : ∀ form, e.uploadSchema? d = some form → FindsOnce d form
  apart : ∀ title title', e.UploadsAs d title → e.UploadsAs d title' →
    Render.lowerFirst title = Render.lowerFirst title' → title = title'
  identifiers : ∀ title, e.UploadsAs d title → a.IsIdentifier (Render.lowerFirst title).toList
  free : ∀ title, e.UploadsAs d title → Render.lowerFirst title ∉ fixed

theorem declares_iff {a : Alphabet} {nullable : Bool} {d : Document} {e : Endpoint} {call : Call}
    (hfiles : e.files d = .ok call.file) :
    a.Declares ((Render.parametersOf nullable call).map Render.Parameter.name) ↔
      e.NamesFiles a d call.fixedNames := by
  have hnames := Render.map_name_parametersOf nullable call
  have hmem : ∀ title, title ∈ call.titles ↔ e.UploadsAs d title := mem_fileTitles_iff hfiles
  have honce : call.titles.Nodup ↔ ∀ form, e.uploadSchema? d = some form → FindsOnce d form :=
    nodup_fileTitles_iff hfiles
  constructor
  · rintro ⟨hidentifiers, hnodup⟩
    obtain ⟨-, htitles, hdisjoint⟩ := List.nodup_append.1 (hnames.nodup_iff.1 hnodup)
    have hfile : ∀ title, e.UploadsAs d title →
        Render.lowerFirst title ∈ call.titles.map Render.lowerFirst :=
      fun title h => List.mem_map_of_mem ((hmem title).2 h)
    constructor
    case once => exact honce.1 (htitles.of_map _)
    case apart =>
      intro title title' h h' hsame
      exact List.inj_on_of_nodup_map htitles ((hmem title).2 h) ((hmem title').2 h') hsame
    case identifiers =>
      intro title h
      exact hidentifiers _ (hnames.mem_iff.2 (List.mem_append_right _ (hfile title h)))
    case free =>
      intro title h hfixed
      exact hdisjoint _ hfixed _ (hfile title h) rfl
  · intro h
    constructor
    case identifiers =>
      intro name hname
      obtain hname | hname := List.mem_append.1 (hnames.mem_iff.1 hname)
      · exact Alphabet.isIdentifier_fixedNames call name hname
      · obtain ⟨title, htitle, rfl⟩ := List.mem_map.1 hname
        exact h.identifiers title ((hmem title).1 htitle)
    case nodup =>
      rw [hnames.nodup_iff, List.nodup_append]
      refine ⟨call.nodup_fixedNames, (honce.2 h.once).map_on ?_, ?_⟩
      · intro title htitle title' htitle' hsame
        exact h.apart title title' ((hmem title).1 htitle) ((hmem title').1 htitle') hsame
      · rintro name hfixed _ hname rfl
        obtain ⟨title, htitle, rfl⟩ := List.mem_map.1 hname
        exact h.free title ((hmem title).1 htitle) hfixed

end Endpoint

namespace Run

variable [Text.Transliteration] {r : Run} {c : Client}

theorem exists_files_of_call (h : r.client = .ok c) {u : ServiceUnit} (hu : u ∈ c.services)
    {call : Call} (hcall : call ∈ u.operations) :
    ∃ e ∈ r.document.spec.endpoints, e.key = call.key ∧ e.files r.document = .ok call.file := by
  obtain ⟨e, he, -, part, hpart, rfl⟩ := exists_isPartOf h hu hcall
  have hkey := key_of_isPartOf hpart
  obtain ⟨used, names, shape, description, hshape, -, rfl⟩ := hpart
  exact ⟨e, (ApiSpec.mem_members.1 he).1, hkey.symm, (shape_eq_ok hshape).2.2.1⟩

/-- The function of a call is declared with a list of parameters, and their names are identifiers of
their own exactly when those of the uploads in its form are. -/
theorem signature_declares_iff (a : Alphabet) (nullable : Bool) (r : Run) (c : Client)
    (h : r.client = .ok c) (u : ServiceUnit) (hu : u ∈ c.services) (call : Call)
    (hcall : call ∈ u.operations) :
    Render.signature nullable call = "export async function " ++ call.functionName ++ "(" ++
      String.join ((Render.parametersOf nullable call).map Render.Parameter.text) ++ "\n) \x7b" ∧
    ∃ e ∈ r.document.spec.endpoints, e.key = call.key ∧
      (a.Declares ((Render.parametersOf nullable call).map Render.Parameter.name) ↔
        e.NamesFiles a r.document call.fixedNames) := by
  obtain ⟨e, he, hkey, hfiles⟩ := exists_files_of_call h hu hcall
  exact ⟨Render.signature_eq nullable call, e, he, hkey, Endpoint.declares_iff hfiles⟩

end Run

namespace Run

def uploadBody (title : String) : RequestBody :=
  ⟨none, some [("multipart/form-data", ⟨some (.schema { Schema.ofType "object" with
    properties := some [(title, .schema { Schema.ofType "string" with
      format := some "binary" })] })⟩)], none⟩

def uploadPost (title : String) : Endpoint :=
  ⟨"/a", .post, ⟨some "upload", none, none, ["pet"], [], some (.item (uploadBody title)), [], none,
    []⟩, []⟩

def uploadSpec (title : String) : ApiSpec :=
  ⟨none, none, .empty, [("/a", ⟨none, none, some (uploadPost title).operation, none, none, []⟩)],
    none⟩

def uploadRun (title : String)
    (h : ApiSpec.ofJson? (uploadSpec title).toJson = some (uploadSpec title)) : Run :=
  ⟨⟨(uploadSpec title).toJson, uploadSpec title, h⟩, .default, .none⟩

theorem files_uploadPost (title : String) (d : Document) :
    (uploadPost title).files d = .ok (some [⟨title, false⟩]) := by
  let file : String × SchemaNode :=
    (title, .schema { Schema.ofType "string" with format := some "binary" })
  let form : SchemaNode := .schema { Schema.ofType "object" with properties := some [file] }
  have hb : (uploadPost title).declaredBody d = .ok (some (uploadBody title)) := rfl
  have hform : Endpoint.multipartSchema? (uploadBody title) = some form := rfl
  have hsteps : Endpoint.uploadSteps form = [.properties [file]] := rfl
  have hfile : Endpoint.propertyFiles d [file] = .ok [⟨title, false⟩] := rfl
  rw [Endpoint.files_of_form hb hform, Endpoint.schemaFiles, hsteps, Endpoint.collectFiles,
    Endpoint.collectFiles, hfile]
  rfl

theorem exists_client_uploadRun (title : String) (h)
    (hrefs : (uploadSpec title).toJson.references = []) :
    ∃ c, (uploadRun title h).client = .ok c := by
  have hall : ∀ reference ∈ (uploadRun title h).document.tree.references,
      (uploadRun title h).document.Resolves reference := by
    have hnone : (uploadRun title h).document.tree.references = [] := hrefs
    rw [hnone]
    exact fun _ hreference => absurd hreference List.not_mem_nil
  have hreads : (uploadRun title h).document.ReadsTargets := by
    have hendpoints : (uploadRun title h).document.spec.endpoints = [uploadPost title] := rfl
    constructor <;> rw [hendpoints] <;> simp [uploadPost, Document.LeadsTo]
  have hgroups : ∀ group ∈ (uploadRun title h).groups,
      group.2 ⊆ (uploadRun title h).document.spec.endpoints := by
    intro group hgroup
    rw [groups_spec hgroup]
    exact List.filter_sublist.subset
  refine exists_bind_ok (exists_allCalls hall hreads hgroups 0 .empty) fun calls _ => ?_
  exact exists_bind_ok (Document.exists_interfaces hall _ _) fun interfaces _ => ⟨_, rfl⟩

theorem exists_call_uploadRun {title : String} {h} {c : Client}
    (hc : (uploadRun title h).client = .ok c) :
    ∃ u ∈ c.services, ∃ call ∈ u.operations, call.titles = [title] := by
  have hkey : ("pet", "/a", "post") ∈ c.census := by
    have hskipped : isSkipped (uploadPost title) = false := by
      change Text.containsText "$\x7b" "/a" = false
      decide +kernel
    have hfold : Endpoint.foldTag Config.default.isCamelCase "pet" = "pet" := by
      decide +kernel
    have htag : "pet" ∈ (uploadPost title).tags Config.default Overrides.none :=
      Endpoint.mem_tags.2 ⟨"pet", List.mem_singleton_self _, hfold⟩
    rw [(census_perm hc).mem_iff, mem_groupCensus]
    exact ⟨uploadPost title, List.mem_singleton_self _, rfl, rfl, hskipped, htag⟩
  obtain ⟨u, hu, hkey⟩ := List.mem_flatMap.1 hkey
  obtain ⟨call, hcall, -⟩ := List.mem_map.1 hkey
  obtain ⟨e, he, -, hfiles⟩ := exists_files_of_call hc hu hcall
  have hpost : e = uploadPost title := List.mem_singleton.1 he
  rw [hpost, files_uploadPost] at hfiles
  refine ⟨u, hu, call, hcall, ?_⟩
  rw [Call.titles, ← Except.ok.inj hfiles]
  rfl

def asciiAlphabet : Alphabet :=
  ⟨fun _ => false, fun _ => false⟩

theorem uploadRun_declares : ∃ c, (uploadRun "File" rfl).client = .ok c ∧ ∃ u ∈ c.services,
    ∃ call ∈ u.operations, call.titles = ["File"] ∧
      asciiAlphabet.Declares ((Render.parametersOf false call).map Render.Parameter.name) := by
  obtain ⟨c, hc⟩ := exists_client_uploadRun "File" rfl (by decide +kernel)
  obtain ⟨u, hu, call, hcall, htitles⟩ := exists_call_uploadRun hc
  obtain ⟨-, e, he, -, hdeclares⟩ :=
    signature_declares_iff asciiAlphabet false (uploadRun "File" rfl) c hc u hu call hcall
  refine ⟨c, hc, u, hu, call, hcall, htitles, hdeclares.2 ?_⟩
  have hpost : e = uploadPost "File" := List.mem_singleton.1 he
  have hfiles := files_uploadPost "File" (uploadRun "File" rfl).document
  rw [← hpost] at hfiles
  have hupload : ∀ title, e.UploadsAs (uploadRun "File" rfl).document title → title = "File" :=
    fun title h => List.mem_singleton.1 ((Endpoint.mem_fileTitles_iff hfiles title).2 h)
  constructor
  case once => exact (Endpoint.nodup_fileTitles_iff hfiles).1 (List.nodup_singleton _)
  case apart =>
    intro title title' h h' _
    rw [hupload title h, hupload title' h']
  case identifiers =>
    intro title h
    rw [hupload title h]
    exact Alphabet.isIdentifier_of_ascii (by decide +kernel)
  case free =>
    intro title h hfixed
    rw [hupload title h] at hfixed
    exact absurd (call.fixedNames_subset hfixed) (by decide)

theorem not_signature_declares : ¬ ∃ a : Alphabet, ∀ (r : Run) (c : Client),
    r.overrides = .none → r.client = .ok c → ∀ u ∈ c.services, ∀ call ∈ u.operations,
      a.Declares ((Render.parametersOf r.config.nullable call).map Render.Parameter.name) := by
  rintro ⟨a, declares⟩
  obtain ⟨c, hc⟩ := exists_client_uploadRun "my-file" rfl (by decide +kernel)
  obtain ⟨u, hu, call, hcall, htitles⟩ := exists_call_uploadRun hc
  have hdeclares := declares _ c rfl hc u hu call hcall
  have hname : "my-file" ∈ call.fixedNames ++ call.titles.map Render.lowerFirst := by
    rw [htitles]
    exact List.mem_append_right _ (by decide +kernel)
  obtain ⟨-, hparts⟩ := hdeclares.identifiers "my-file"
    ((Render.map_name_parametersOf _ call).mem_iff.2 hname)
  have hhyphen := hparts '-' (by decide)
  rw [Alphabet.isPart, if_pos (by decide)] at hhyphen
  cases hhyphen

end Run

end ApiClient
