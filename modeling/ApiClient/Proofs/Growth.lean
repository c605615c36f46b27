import ApiClient.Proofs.Census
import ApiClient.Proofs.EndpointReferences
import ApiClient.Proofs.Pointers

namespace ApiClient

namespace Document

/-- More paths stand behind those of `d`, and the components are the same. -/
structure Extends (d' d : Document) : Prop where
  paths : d.spec.paths <+: d'.spec.paths
  components : d'.tree.get? "components" = d.tree.get? "components"

section Trees

variable {α : Type} {read : Json → Option α}

theorem prefix_of_readEntries?_append {entries more : List (String × Json)}
    {map map' : List (String × α)} (h : Json.readEntries? read entries = some map)
    (h' : Json.readEntries? read (entries ++ more) = some map') : map <+: map' := by
  induction entries generalizing map map' with
  | nil =>
    cases h
    exact List.nil_prefix
  | cons entry entries ih =>
    obtain ⟨a, ha, h⟩ := Option.bind_eq_some_iff.1 h
    obtain ⟨rest, hrest, h⟩ := Option.bind_eq_some_iff.1 h
    obtain ⟨a', ha', h'⟩ := Option.bind_eq_some_iff.1 h'
    obtain ⟨rest', hrest', h'⟩ := Option.bind_eq_some_iff.1 h'
    rw [ha] at ha'
    cases ha'
    cases h
    cases h'
    exact List.cons_prefix_cons.2 ⟨rfl, ih hrest hrest'⟩

theorem readEntries?_paths {d : Document} {paths : List (String × Json)}
    (hpaths : d.tree.get? "paths" = some (.object paths)) (hnodup : (paths.map Prod.fst).Nodup) :
    Json.readEntries? PathItem.ofJson? paths = some d.spec.paths := by
  have hreads := d.reads
  cases htree : d.tree with
  | object entries =>
    rw [htree] at hreads hpaths
    simp only [ApiSpec.ofJson?, Option.bind_eq_bind, Option.bind_eq_some_iff] at hreads
    obtain ⟨field, hfield, _, -, _, -, _, -, read, hread, _, -, hspec⟩ := hreads
    cases hfield
    have hlookup : entries.lookup "paths" = some (.object paths) := hpaths
    dsimp only at hread
    rw [hlookup] at hread
    obtain ⟨map, hmap, rfl⟩ := Option.map_eq_some_iff.1 hread
    rw [← Option.some.inj hspec, mapOfEntries_eq_self (Json.keys_readEntries? hmap ▸ hnodup)]
    exact hmap
  | _ =>
    rw [htree] at hpaths
    cases hpaths

theorem extends_of_append {d d' : Document} {paths more : List (String × Json)}
    (hpaths : d.tree.get? "paths" = some (.object paths))
    (hpaths' : d'.tree.get? "paths" = some (.object (paths ++ more)))
    (hnodup : ((paths ++ more).map Prod.fst).Nodup)
    (hcomponents : d'.tree.get? "components" = d.tree.get? "components") : d'.Extends d := by
  have hsub : (paths.map Prod.fst).Sublist ((paths ++ more).map Prod.fst) :=
    (List.sublist_append_left paths more).map _
  exact ⟨prefix_of_readEntries?_append (readEntries?_paths hpaths (hnodup.sublist hsub))
    (readEntries?_paths hpaths' hnodup), hcomponents⟩

end Trees

variable {d d' : Document} {references references' : List String}

theorem Extends.endpoints (h : Extends d' d) : d.spec.endpoints <+: d'.spec.endpoints := by
  obtain ⟨more, hmore⟩ := h.paths
  rw [ApiSpec.endpoints, ApiSpec.endpoints, ← hmore, List.flatMap_append]
  exact List.prefix_append _ _

theorem Extends.share_endpoint (h : Extends d' d) {e : Endpoint} (he : e ∈ d.spec.endpoints) :
    Share d' d e.references :=
  ⟨references_endpoint_subset he, references_endpoint_subset (h.endpoints.subset he)⟩

theorem exists_pointerKeys {reference : String}
    (h : Text.startsWith "#/components/" reference = true) :
    ∃ keys, Json.pointerKeys? reference = some ("components" :: keys) := by
  obtain ⟨rest, hrest⟩ := List.isPrefixOf_iff_prefix.1 h
  have hstart : "#/components/".toList = '#' :: '/' :: ("components".toList ++ ['/']) := by decide
  have hmark : '/' ∉ "components".toList := by decide
  rw [hstart, List.cons_append, List.cons_append, List.append_assoc, List.singleton_append] at hrest
  refine ⟨(rest.splitOnP (· == '/')).map fun segment =>
    String.ofList (Json.unescapeSegment segment), ?_⟩
  rw [Json.pointerKeys?, ← hrest]
  simp only [List.isPrefixOf?, beq_self_eq_true, if_true, Option.map_some,
    List.splitOnP_append_cons_of_forall_mem (Text.beq_eq_false hmark) _ (beq_self_eq_true _),
    List.map_cons]
  rfl

theorem child?_components (v : Json) : v.child? "components" = v.get? "components" := by
  cases v with
  | array items => rfl
  | _ => rfl

section Following

variable (hext : Extends d' d) (hpoints : ∀ reference ∈ d.tree.references,
  Text.startsWith "#/components/" reference = true)
include hext hpoints

theorem lookup_eq {reference : String} (h : reference ∈ d.tree.references) :
    d'.lookup reference = d.lookup reference := by
  obtain ⟨keys, hkeys⟩ := exists_pointerKeys (hpoints reference h)
  have hdescend : d'.tree.descend? ("components" :: keys) =
      d.tree.descend? ("components" :: keys) := by
    rw [Json.descend?, Json.descend?, child?_components, child?_components, hext.components]
  rw [lookup, lookup, hkeys]
  simp only [hdescend]

theorem follow_eq {pending' pending : List String} (hagree : AgreeOn d' d pending' pending)
    {reference : String} (href : Share d' d [reference]) :
    d'.follow pending' reference = d.follow pending reference := by
  fun_induction Document.follow d pending reference generalizing pending' with
  | case1 pending path hpath ih =>
    have hlookup := lookup_eq hext hpoints (href.1 (List.mem_singleton_self path))
    rw [follow, if_pos ((hagree path href).2 hpath)]
    refine bind_congr_of_ok hlookup fun found hfound => ?_
    cases found with
    | none => rfl
    | some target =>
      dsimp only
      cases hnext : target.reference? with
      | none => rfl
      | some next =>
        -- both documents hold the target, so both hold the reference that it is
        have hmem := Json.mem_references_of_reference? hnext
        have hshare : Share d' d [next] :=
          ⟨List.cons_subset.2 ⟨references_subset_of_lookup hfound hmem, List.nil_subset _⟩,
            List.cons_subset.2 ⟨references_subset_of_lookup (hlookup.trans hfound) hmem,
              List.nil_subset _⟩⟩
        dsimp only
        rw [ih next (hagree.without path) hshare]
  | case2 pending path hpath =>
    rw [follow, if_neg fun h => hpath ((hagree path href).1 h)]

theorem resolve_eq {reference : String} (h : Share d' d [reference]) :
    d'.resolve reference = d.resolve reference :=
  follow_eq hext hpoints (agreeOn_append_references [reference] [reference]) h

theorem resolveSchema_eq {node : SchemaNode} (h : Share d' d node.references) :
    d'.resolveSchema node = d.resolveSchema node := by
  cases node with
  | reference path => rw [resolveSchema, resolveSchema, resolve_eq hext hpoints h]
  | _ => rfl

theorem share_of_resolveSchema {node resolved : SchemaNode} (h : Share d' d node.references)
    (hresolved : d.resolveSchema node = .ok resolved) : Share d' d resolved.references :=
  ⟨references_subset_of_resolveSchema hresolved h.1,
    references_subset_of_resolveSchema ((resolveSchema_eq hext hpoints h).trans hresolved) h.2⟩

theorem resolveRef_eq {α : Type} (read : Json → Option α) {held : α → List String} {node : RefOr α}
    (h : Share d' d (node.references held)) : d'.resolveRef read node = d.resolveRef read node := by
  cases node with
  | reference path => rw [resolveRef, resolveRef, resolve_eq hext hpoints h]
  | item a => rfl

end Following

end Document

open Document

section Endpoints

variable {d d' : Document} (hext : Extends d' d) (hpoints : ∀ reference ∈ d.tree.references,
  Text.startsWith "#/components/" reference = true) {e : Endpoint}
include hext hpoints

namespace Endpoint

theorem declaredIn_eq {nodes : List (RefOr Parameter)}
    (h : ∀ node ∈ nodes, Share d' d (node.references Parameter.references)) :
    declaredIn d' nodes = declaredIn d nodes := by
  have hnodes : nodes.mapM d'.resolveParameter = nodes.mapM d.resolveParameter :=
    mapM_congr_of_mem fun node hnode => resolveRef_eq hext hpoints _ (h node hnode)
  rw [declaredIn, declaredIn, hnodes]

theorem namedParameters_eq (he : Share d' d e.references) :
    e.namedParameters d' = e.namedParameters d := by
  have hnode : ∀ node, node ∈ e.operation.parameters ∨ node ∈ e.pathParameters →
      Share d' d (node.references Parameter.references) :=
    fun node hnode => he.mono (mem_references_parameters hnode)
  have hown := declaredIn_eq hext hpoints fun node h => hnode node (.inl h)
  have hshared := declaredIn_eq hext hpoints fun node h => hnode node (.inr h)
  rw [namedParameters, namedParameters, hown, hshared]

theorem declaredBody_eq (he : Share d' d e.references) : e.declaredBody d' = e.declaredBody d := by
  cases hbody : e.operation.requestBody with
  | none => rw [declaredBody, declaredBody, hbody]
  | some node =>
    rw [declaredBody, declaredBody, hbody]
    exact resolveRef_eq hext hpoints _ (he.mono (references_requestBody hbody))

theorem share_declaredBody (he : Share d' d e.references) {b : RequestBody}
    (h : e.declaredBody d = .ok (some b)) : Share d' d b.references :=
  ⟨references_subset_of_declaredBody h he.1,
    references_subset_of_declaredBody ((declaredBody_eq hext hpoints he).trans h) he.2⟩

theorem resolveResponse_eq (he : Share d' d e.references) {code : String} {node : RefOr Response}
    (h : e.operation.responses.lookup code = some node) :
    d'.resolveResponse node = d.resolveResponse node :=
  resolveRef_eq hext hpoints _ (he.mono (references_response h))

theorem propertyFiles_eq {ps : List (String × SchemaNode)}
    (h : Share d' d (SchemaNode.propertyReferences ps)) :
    propertyFiles d' ps = propertyFiles d ps := by
  have hfiles : ps.mapM (propertyFile d') = ps.mapM (propertyFile d) := by
    refine mapM_congr_of_mem fun p hp => ?_
    have hnode : Share d' d p.2.references :=
      h.mono fun path hpath => SchemaNode.mem_propertyReferences.2 ⟨p, hp, hpath⟩
    rw [propertyFile, propertyFile, resolveSchema_eq hext hpoints hnode]
  rw [propertyFiles, propertyFiles, hfiles]

theorem collectFiles_eq {pending' pending : List String} (hagree : AgreeOn d' d pending' pending)
    {steps : List UploadStep} (h : ∀ step ∈ steps, Share d' d step.references) :
    collectFiles d' pending' steps = collectFiles d pending steps := by
  fun_induction collectFiles d pending steps generalizing pending' with
  | case1 => rw [collectFiles]
  | case2 pending path rest hpath ih =>
    obtain ⟨hstep, hrest⟩ := List.forall_mem_cons.1 h
    have hnode : Share d' d (SchemaNode.reference path).references := hstep
    rw [collectFiles, if_pos ((hagree path hstep).2 hpath)]
    refine bind_congr_of_ok (resolveSchema_eq hext hpoints hnode) fun resolved hresolved => ?_
    have hadded : ∀ next ∈ resolvedSteps resolved, Share d' d next.references := fun next hnext =>
      (share_of_resolveSchema hext hpoints hnode hresolved).mono
        (UploadStep.references_subset_resolvedSteps hnext)
    exact ih resolved (hagree.without path) (List.forall_mem_append.2 ⟨hadded, hrest⟩)
  | case3 pending path rest hpath ih =>
    obtain ⟨hstep, hrest⟩ := List.forall_mem_cons.1 h
    rw [collectFiles, if_neg fun hmem => hpath ((hagree path hstep).1 hmem)]
    exact ih hagree hrest
  | case4 pending ps rest ih =>
    obtain ⟨hstep, hrest⟩ := List.forall_mem_cons.1 h
    rw [collectFiles, propertyFiles_eq hext hpoints hstep, ih hagree hrest]

theorem schemaFiles_eq {node : SchemaNode} (h : Share d' d node.references) :
    schemaFiles d' node = schemaFiles d node :=
  collectFiles_eq hext hpoints (agreeOn_append_references _ _) fun _ hstep =>
    h.mono (UploadStep.references_subset_uploadSteps hstep)

theorem files_eq (he : Share d' d e.references) : e.files d' = e.files d := by
  refine bind_congr_of_ok (declaredBody_eq hext hpoints he) fun b hb => ?_
  cases hschema : b.bind multipartSchema? with
  | none => rfl
  | some node =>
    obtain ⟨body, rfl, hnode⟩ := Option.bind_eq_some_iff.1 hschema
    have hshare := (share_declaredBody hext hpoints he hb).mono (references_multipartSchema? hnode)
    dsimp only
    rw [schemaFiles_eq hext hpoints hshare]

variable [Text.Transliteration] {t : Typing}

theorem toParam_eq {p : Parameter} (h : Share d' d p.references) :
    toParam d' t p = toParam d t p := by
  have hobject : isObjectParameter d' p = isObjectParameter d p := by
    unfold isObjectParameter
    cases hnode : p.schema with
    | none => rfl
    | some node =>
      have hshare : Share d' d node.references :=
        h.mono fun path hpath => by simpa [Parameter.references, hnode] using hpath
      dsimp only
      rw [resolveSchema_eq hext hpoints hshare]
  rw [toParam, toParam, hobject]

theorem params_eq (he : Share d' d e.references) : e.params d' t = e.params d t := by
  have hnamed := namedParameters_eq hext hpoints he
  refine bind_congr_of_ok hnamed fun named h => ?_
  have hgrouped : (named.filter isGrouped).mapM (toParam d' t) =
      (named.filter isGrouped).mapM (toParam d t) := by
    refine mapM_congr_of_mem fun p hp => toParam_eq hext hpoints ⟨?_, ?_⟩
    · exact references_subset_of_namedParameters h he.1 (List.mem_filter.1 hp).1
    · exact references_subset_of_namedParameters (hnamed.trans h) he.2 (List.mem_filter.1 hp).1
  rw [hgrouped]

theorem body_eq (he : Share d' d e.references) : e.body d' t = e.body d t := by
  refine bind_congr_of_ok (declaredBody_eq hext hpoints he) fun declared hdeclared => ?_
  match declared with
  | none => rfl
  | some ⟨_, none, _⟩ => rfl
  | some ⟨_, some [], _⟩ => rfl
  | some ⟨_, some ((mediaType, media) :: rest), _⟩ =>
    have hnode := (share_declaredBody hext hpoints he hdeclared).mono (references_firstMedia rfl)
    dsimp only
    rw [resolveSchema_eq hext hpoints hnode]

omit [Text.Transliteration] in
theorem unwrapped_eq {node : SchemaNode} (h : Share d' d node.references)
    (dataFields : List String) : unwrapped d' dataFields node = unwrapped d dataFields node := by
  cases node with
  | reference path => rw [unwrapped, unwrapped, resolveSchema_eq hext hpoints h]
  | _ => rfl

theorem responseOf_eq {r : Response} (h : Share d' d r.references) (dataFields : List String) :
    responseOf d' t dataFields r = responseOf d t dataFields r := by
  unfold responseOf
  split
  · rfl
  · next mediaType media hmedia =>
    rw [unwrapped_eq hext hpoints (h.mono (references_chosenMedia hmedia))]

theorem response_eq (he : Share d' d e.references) (dataFields : List String) :
    e.response d' t dataFields = e.response d t dataFields := by
  unfold response
  split
  · rfl
  · next node hdeclared =>
    obtain ⟨code, hcode⟩ := exists_lookup_of_declaredResponse? hdeclared
    have hresolve := resolveResponse_eq hext hpoints he hcode
    refine bind_congr_of_ok hresolve fun r hr => ?_
    cases r with
    | none => rfl
    | some r =>
      exact responseOf_eq hext hpoints ⟨references_subset_of_resolveResponse hr hcode he.1,
        references_subset_of_resolveResponse (hresolve.trans hr) hcode he.2⟩ dataFields

end Endpoint

end Endpoints

namespace Run

variable [Text.Transliteration] {r : Run} {d' : Document} {tag : String}

section Steps

variable (hext : Extends d' r.document)
  (hpoints : ∀ reference ∈ r.document.tree.references,
    Text.startsWith "#/components/" reference = true)
  {e : Endpoint} (he : e ∈ r.document.spec.endpoints)
include hext hpoints he

theorem shape_eq_of_extends : Run.shape { r with document := d' } e = r.shape e := by
  have hshare := hext.share_endpoint he
  rw [shape, shape, Endpoint.params_eq hext hpoints hshare, Endpoint.body_eq hext hpoints hshare,
    Endpoint.files_eq hext hpoints hshare, Endpoint.response_eq hext hpoints hshare]
  rfl

omit [Text.Transliteration] in
theorem describe_eq_of_extends (functionName : String) :
    Run.describe { r with document := d' } e functionName = r.describe e functionName := by
  have hreturns : Run.returns { r with document := d' } e = r.returns e := by
    unfold returns
    split
    · rfl
    · next node hnode =>
      rw [Endpoint.resolveResponse_eq hext hpoints (hext.share_endpoint he) hnode]
  rw [describe, describe, hreturns]

end Steps

theorem functionName_document (r : Run) (d' : Document) :
    Run.functionName { r with document := d' } = r.functionName :=
  rfl

theorem callPart_document (r : Run) (d' : Document) :
    Run.callPart { r with document := d' } = r.callPart :=
  rfl

/-- Two calls that differ in nothing but the name of the parameter type. -/
def SameButType (call call' : Call) : Prop :=
  { call' with typeName := call.typeName } = call

/-- The names given before decide only how the parameter type is called. -/
theorem sameButType_callPart (r : Run) (tag : String) (e : Endpoint) (s : CallShape)
    (functionName description : String) (names names' : ParamsTypeNames) :
    SameButType (r.callPart tag e s functionName description names).1.call
      (r.callPart tag e s functionName description names').1.call :=
  rfl

theorem exists_tagParts_prefix {used : NameCounts} {names₁ names₁' names₂ names₂' : ParamsTypeNames}
    {es more : List Endpoint} {parts parts' : List CallPart}
    (hshape : ∀ e ∈ es, Run.shape { r with document := d' } e = r.shape e)
    (hdescribe : ∀ e ∈ es, ∀ functionName,
      Run.describe { r with document := d' } e functionName = r.describe e functionName)
    (h : r.tagParts tag used names₁ es = (.ok parts, names₁'))
    (h' : Run.tagParts { r with document := d' } tag used names₂ (es ++ more) =
      (.ok parts', names₂')) :
    ∃ first, first <+: parts' ∧
      List.Forall₂ (fun part part' => SameButType part.call part'.call) parts first := by
  induction es generalizing used names₁ names₂ parts parts' with
  | nil =>
    obtain ⟨rfl, -⟩ := tagParts_nil h
    exact ⟨[], List.nil_prefix, .nil⟩
  | cons e rest ih =>
    obtain ⟨hshapeHead, hshapeRest⟩ := List.forall_mem_cons.1 hshape
    obtain ⟨hdescribeHead, hdescribeRest⟩ := List.forall_mem_cons.1 hdescribe
    obtain ⟨hs, hrest⟩ |
      ⟨hs, shape, description, part, names, tail, hpartShape, hd, hpart, hrest, rfl⟩ :=
        tagParts_cons h
    · obtain ⟨-, hrest'⟩ | ⟨hs', -⟩ := tagParts_cons h'
      · exact ih hshapeRest hdescribeRest hrest hrest'
      · exact absurd (hs'.symm.trans hs) Bool.false_ne_true
    · obtain ⟨hs', -⟩ | ⟨-, shape', description', part', names', tail', hpartShape', hd', hpart',
        hrest', rfl⟩ := tagParts_cons h'
      · exact absurd (hs.symm.trans hs') Bool.false_ne_true
      · obtain ⟨first, hprefix, hsame⟩ := ih hshapeRest hdescribeRest hrest hrest'
        -- the same names have been counted so far, so the drafts agree; the type names may not
        obtain rfl : shape = shape' :=
          Except.ok.inj (hpartShape.symm.trans (hshapeHead.symm.trans hpartShape'))
        obtain rfl : description = description' :=
          Except.ok.inj (hd.symm.trans ((hdescribeHead _).symm.trans hd'))
        have hhead := sameButType_callPart r tag e shape (used.take (r.functionName e)).1
          description names₁ names₂
        rw [callPart_document, functionName_document] at hpart'
        rw [hpart, hpart'] at hhead
        exact ⟨part' :: first, List.cons_prefix_cons.2 ⟨rfl, hprefix⟩, .cons hhead hsame⟩

theorem members_of_extends (hext : Extends d' r.document) (tag : String) :
    r.document.spec.members r.config r.overrides tag <+:
      d'.spec.members r.config r.overrides tag :=
  hext.endpoints.filter _

/-- A client keeps its calls when its document grows, but for the names of parameter types. -/
theorem calls_of_extends (r : Run) (d' : Document) (c c' : Client)
    (hext : Extends d' r.document)
    (hpoints : ∀ reference ∈ r.document.tree.references,
      Text.startsWith "#/components/" reference = true)
    (h : r.client = .ok c) (h' : Run.client { r with document := d' } = .ok c')
    (tag : String) (call : Call) (hcall : (tag, call) ∈ c.taggedCalls) :
    (∃ call', (tag, call') ∈ c'.taggedCalls ∧ call'.key = call.key) ∧
      ∀ call', (tag, call') ∈ c'.taggedCalls → call'.key = call.key →
        { call' with typeName := call.typeName } = call := by
  obtain ⟨names₁, names₁', parts, hparts, hmem⟩ := exists_tagParts_of_mem_taggedCalls h hcall
  constructor
  · have hkey : (tag, call.key) ∈ c.census := by
      rw [← map_key_taggedCalls]
      exact List.mem_map.2 ⟨_, hcall, rfl⟩
    obtain ⟨e, he, hpath, hmethod, hs, htag⟩ := mem_groupCensus.1 ((census_perm h).mem_iff.1 hkey)
    have hkey' : (tag, call.key) ∈ c'.census :=
      (census_perm h').mem_iff.2
        (mem_groupCensus.2 ⟨e, hext.endpoints.subset he, hpath, hmethod, hs, htag⟩)
    rw [← map_key_taggedCalls] at hkey'
    obtain ⟨⟨tag', call'⟩, hcall', heq⟩ := List.mem_map.1 hkey'
    obtain ⟨rfl, hsame⟩ := Prod.mk.inj heq
    exact ⟨call', hcall', hsame⟩
  · intro call' hcall' hkey
    obtain ⟨names₂, names₂', parts', hparts', hmem'⟩ := exists_tagParts_of_mem_taggedCalls h' hcall'
    have hnodup := nodup_keys_tagParts hparts'
    have hmembers : ∀ e ∈ r.document.spec.members r.config r.overrides tag,
        e ∈ r.document.spec.endpoints := fun e he => (ApiSpec.mem_members.1 he).1
    obtain ⟨more, hmore⟩ := members_of_extends hext tag
    rw [← hmore] at hparts'
    obtain ⟨first, hprefix, hsame⟩ := exists_tagParts_prefix
      (fun e he => shape_eq_of_extends hext hpoints (hmembers e he))
      (fun e he => describe_eq_of_extends hext hpoints (hmembers e he)) hparts hparts'
    obtain ⟨part, hpart, rfl⟩ := List.mem_map.1 hmem
    obtain ⟨part', hpart', hsame⟩ := exists_of_forall₂_left hsame hpart
    have hkept : part'.call ∈ parts'.map CallPart.call :=
      List.mem_map.2 ⟨part', hprefix.subset hpart', rfl⟩
    have hkeys : part'.call.key = part.call.key := by
      rw [← hsame]
      rfl
    rw [List.inj_on_of_nodup_map hnodup hmem' hkept (hkey.trans hkeys.symm)]
    exact hsame

end Run

end ApiClient

namespace ApiClient.Run

def shelfPaths : List (String × Json) :=
  [("/a", .object [("get", operationTree "find" ["a"] [])]),
    ("/b", .object [("get", operationTree "list" ["b"] []), ("parameters", .array [.object [
      ("name", .string "size"), ("in", .string "query"),
      ("schema", .object [("$ref", .string "#/components/schemas/Size")])]])])]

def shelfTree (more : List (String × Json)) : Json :=
  documentTree (shelfPaths ++ more) [("Size", .object [("type", .string "integer")])]

def shelfRun : Run :=
  .ofTree .default (shelfTree []) (by decide +kernel)

/-- The parameter type of the third path takes the name that the second had. -/
def grownShelf : Document :=
  (ofTree .default (shelfTree [("/c", .object [("get", operationTree "list" ["a"] ["page"])])])
    (by decide +kernel)).document

theorem shelfRun_grows : grownShelf.Extends shelfRun.document ∧
    (∀ reference ∈ shelfRun.document.tree.references,
      Text.startsWith "#/components/" reference = true) ∧
    ∃ c c' call, shelfRun.client = .ok c ∧
      Run.client { shelfRun with document := grownShelf } = .ok c' ∧
      ("b", call) ∈ c.taggedCalls ∧ call.typeName = "API.ListParams" ∧
      c'.taggedCalls.map (fun entry => (entry.1, entry.2.typeName)) =
        [("a", "API.FindParams"), ("a", "API.ListParams"), ("b", "API.ListParams2")] ∧
      (∃ call', ("b", call') ∈ c'.taggedCalls ∧ call'.key = call.key) ∧
      ∀ call', ("b", call') ∈ c'.taggedCalls → call'.key = call.key →
        { call' with typeName := call.typeName } = call := by
  have hpaths : shelfRun.document.tree.get? "paths" = some (.object shelfPaths) := rfl
  have hext : grownShelf.Extends shelfRun.document :=
    Document.extends_of_append hpaths rfl (by decide +kernel) rfl
  have hpoints : ∀ reference ∈ shelfRun.document.tree.references,
      Text.startsWith "#/components/" reference = true := by
    decide +kernel
  obtain ⟨c, hc, htypes⟩ : ∃ c, shelfRun.client = .ok c ∧
      c.taggedCalls.map (fun entry => (entry.1, entry.2.typeName)) =
        [("a", "API.FindParams"), ("b", "API.ListParams")] :=
    exists_ok_of_map (by decide +kernel)
  obtain ⟨c', hc', htypes'⟩ : ∃ c', Run.client { shelfRun with document := grownShelf } = .ok c' ∧
      c'.taggedCalls.map (fun entry => (entry.1, entry.2.typeName)) =
        [("a", "API.FindParams"), ("a", "API.ListParams"), ("b", "API.ListParams2")] :=
    exists_ok_of_map (by decide +kernel)
  have hmem : ("b", "API.ListParams") ∈
      c.taggedCalls.map fun entry => (entry.1, entry.2.typeName) := by
    rw [htypes]
    simp
  obtain ⟨⟨_, call⟩, hcall, heq⟩ := List.mem_map.1 hmem
  obtain ⟨rfl, htype⟩ := Prod.mk.inj heq
  exact ⟨hext, hpoints, c, c', call, hc, hc', hcall, htype, htypes',
    calls_of_extends shelfRun grownShelf c c' hext hpoints hc hc' _ call hcall⟩

end ApiClient.Run
