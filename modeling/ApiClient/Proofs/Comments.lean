import ApiClient.Proofs.Pieces
import ApiClient.Proofs.Runs
import ApiClient.Render.Service
import ApiClient.Render.Typings

namespace ApiClient

namespace Text

section Pairs

variable {x y c : Char} {a b cs : List Char}

theorem pair_prefix_append_cons (hy : c ≠ y) (hx : c ≠ x) :
    [x, y] <+: a ++ c :: b ↔ [x, y] <+: a := by
  cases a with
  | nil => simp [List.cons_prefix_cons, hx.symm]
  | cons d rest =>
    cases rest with
    | nil => simp [List.cons_prefix_cons, hy.symm]
    | cons e rest => simp [List.cons_prefix_cons]

/-- A pair of characters does not reach across another one. -/
theorem pair_infix_append_cons (hx : c ≠ x) (hy : c ≠ y) :
    [x, y] <:+: a ++ c :: b ↔ [x, y] <:+: a ∨ [x, y] <:+: b := by
  induction a with
  | nil =>
    rw [List.nil_append, List.infix_cons_iff]
    simp [List.cons_prefix_cons, hx.symm]
  | cons d rest ih =>
    rw [List.cons_append, List.infix_cons_iff, List.infix_cons_iff, ih, ← List.cons_append,
      pair_prefix_append_cons hy hx, or_assoc]

theorem pair_infix_dropWhile {p : Char → Bool} (hx : p x = false) :
    [x, y] <:+: cs.dropWhile p ↔ [x, y] <:+: cs := by
  induction cs with
  | nil => rfl
  | cons c rest ih =>
    cases hc : p c with
    | false => rw [List.dropWhile_cons_of_neg (by simp [hc])]
    | true =>
      have hne : x ≠ c := by
        rintro rfl
        rw [hx] at hc
        cases hc
      rw [List.dropWhile_cons_of_pos hc, ih, List.infix_cons_iff]
      simp [List.cons_prefix_cons, hne]

theorem pair_infix_trim (hx : isBlank x = false) (hy : isBlank y = false) :
    [x, y] <:+: trim cs ↔ [x, y] <:+: cs := by
  have hend : ∀ cs, [x, y] <:+: trimEnd cs ↔ [x, y] <:+: cs := by
    intro cs
    have hpair : [x, y] = [y, x].reverse := rfl
    rw [trimEnd, hpair, List.reverse_infix, pair_infix_dropWhile hy, ← List.reverse_infix,
      List.reverse_reverse]
  rw [trim, hend, trimStart, pair_infix_dropWhile hx]

end Pairs

def StaysInside (text : String) : Prop :=
  ¬ ['*', '/'] <:+: text.toList

/-- Read on from its start, a comment with this text ends at its own end, whatever comes then. -/
def Closes (text : String) : Prop :=
  ∀ after : List Char, breakAtMark ['*', '/'] (("* " ++ text ++ " */").toList ++ after) =
    some (("* " ++ text ++ " ").toList, after)

theorem breakAtMark_append_iff {cs after : List Char} :
    breakAtMark ['*', '/'] (cs ++ '*' :: '/' :: after) = some (cs, after) ↔
      ¬ ['*', '/'] <:+: cs := by
  induction cs with
  | nil => simp [breakAtMark]
  | cons c rest ih =>
    have hstart : ['*', '/'] <+: c :: rest ++ '*' :: '/' :: after ↔ ['*', '/'] <+: c :: rest := by
      cases rest <;> simp [List.cons_prefix_cons]
    rw [List.infix_cons_iff, not_or, ← ih, ← hstart, List.cons_append, breakAtMark]
    split
    · next h =>
      rw [List.isPrefixOf_iff_prefix] at h
      simp [h]
    · next h =>
      rw [List.isPrefixOf_iff_prefix] at h
      simp only [h, not_false_eq_true, true_and]
      constructor
      · intro hbreak
        obtain ⟨⟨before, after'⟩, hrest, heq⟩ := Option.map_eq_some_iff.1 hbreak
        cases heq
        exact hrest
      · intro hrest
        rw [hrest]
        rfl

theorem closes_iff {text : String} : Closes text ↔ StaysInside text := by
  have hbody : ∀ after : List Char, ("* " ++ text ++ " */").toList ++ after =
      ("* " ++ text ++ " ").toList ++ '*' :: '/' :: after := by
    intro after
    simp [String.toList_append]
  have hinside : ['*', '/'] <:+: ("* " ++ text ++ " ").toList ↔ ['*', '/'] <:+: text.toList := by
    have hlist : ("* " ++ text ++ " ").toList = ['*'] ++ ' ' :: (text.toList ++ ' ' :: []) := by
      simp [String.toList_append]
    rw [hlist, pair_infix_append_cons (by decide) (by decide),
      pair_infix_append_cons (by decide) (by decide)]
    simp [List.infix_cons_iff, List.cons_prefix_cons]
  rw [Closes, StaysInside, ← hinside]
  constructor
  · intro h
    exact breakAtMark_append_iff.1 (hbody [] ▸ h [])
  · intro h after
    rw [hbody]
    exact breakAtMark_append_iff.2 h

theorem staysInside_empty : StaysInside "" := by
  simp [StaysInside]

theorem staysInside_of_notMem {text : String} (h : '*' ∉ text.toList) : StaysInside text :=
  fun hmark => h (hmark.subset List.mem_cons_self)

theorem staysInside_append_blank {s t : String} :
    StaysInside (s ++ " " ++ t) ↔ StaysInside s ∧ StaysInside t := by
  have hlist : (s ++ " " ++ t).toList = s.toList ++ ' ' :: t.toList := by
    simp [String.toList_append]
  rw [StaysInside, hlist, pair_infix_append_cons (by decide) (by decide), not_or]
  rfl

theorem staysInside_trimText {text : String} : StaysInside (trimText text) ↔ StaysInside text := by
  rw [StaysInside, trimText, String.toList_ofList, pair_infix_trim (by decide) (by decide)]
  rfl

theorem staysInside_intercalate {parts : List String} :
    StaysInside (" ".intercalate parts) ↔ ∀ part ∈ parts, StaysInside part := by
  induction parts with
  | nil => simp [staysInside_empty]
  | cons part rest ih =>
    cases rest with
    | nil => simp
    | cons next rest =>
      rw [String.intercalate_cons_cons, staysInside_append_blank, ih]
      exact List.forall_mem_cons.symm

theorem notMem_replaceMark {c : Char} {new : List Char} (hnew : c ∉ new) (cs : List Char) :
    c ∉ replaceMark [c] new cs := by
  have hne : [c] ≠ [] := List.cons_ne_nil _ _
  induction cs using scan_induction hne with
  | nil => simp [replaceMark_nil]
  | hit rest ih =>
    rw [replaceMark_append_mark hne, List.mem_append, not_or]
    exact ⟨hnew, ih⟩
  | skip d rest hmark ih =>
    rw [replaceMark_cons hmark, List.mem_cons, not_or]
    refine ⟨fun heq => hmark ?_, ih⟩
    rw [heq]
    exact List.prefix_append [d] rest

end Text

namespace Render

/-- A part of a written file: code, or a comment with some text in it. -/
inductive Segment where
  | code (text : String)
  | comment (text : String)

def Segment.written : Segment → String
  | code text => text
  | comment text => "/** " ++ text ++ " */"

/-- The text of a file that is made of some segments. -/
def written (segments : List Segment) : String :=
  String.join (segments.map Segment.written)

/-- Every comment among some segments ends at its own end. -/
def CommentsClose (segments : List Segment) : Prop :=
  ∀ text, .comment text ∈ segments → Text.Closes text

section Segments

variable {segments more : List Segment}

@[simp] theorem written_nil : written [] = "" := rfl

@[simp] theorem written_code (text : String) :
    written (.code text :: segments) = text ++ written segments := by
  simp [written, Segment.written]

@[simp] theorem written_comment (text : String) :
    written (.comment text :: segments) = "/** " ++ text ++ " */" ++ written segments := by
  simp [written, Segment.written]

@[simp] theorem written_append : written (segments ++ more) = written segments ++ written more := by
  simp [written]

theorem written_flatten (parts : List (List Segment)) :
    written parts.flatten = String.join (parts.map written) := by
  induction parts with
  | nil => rfl
  | cons part rest ih => simp [ih]

theorem written_intercalate (mark : String) (parts : List (List Segment)) :
    written (List.intercalate [.code mark] parts) = mark.intercalate (parts.map written) := by
  induction parts with
  | nil => simp
  | cons part rest ih =>
    cases rest with
    | nil => simp
    | cons next rest =>
      rw [List.intercalate_cons_cons, written_append, written_append, ih]
      simp [String.intercalate_cons_cons]

@[simp] theorem commentsClose_nil : CommentsClose [] := by
  simp [CommentsClose]

@[simp] theorem commentsClose_code {text : String} :
    CommentsClose (.code text :: segments) ↔ CommentsClose segments := by
  simp [CommentsClose]

@[simp] theorem commentsClose_comment {text : String} :
    CommentsClose (.comment text :: segments) ↔
      Text.StaysInside text ∧ CommentsClose segments := by
  simp [CommentsClose, or_imp, forall_and, Text.closes_iff]

@[simp] theorem commentsClose_append :
    CommentsClose (segments ++ more) ↔ CommentsClose segments ∧ CommentsClose more := by
  simp [CommentsClose, or_imp, forall_and]

theorem commentsClose_flatten {parts : List (List Segment)} :
    CommentsClose parts.flatten ↔ ∀ part ∈ parts, CommentsClose part := by
  induction parts with
  | nil => simp
  | cons part rest ih => simp [ih]

theorem commentsClose_intercalate {mark : String} {parts : List (List Segment)} :
    CommentsClose (List.intercalate [.code mark] parts) ↔ ∀ part ∈ parts, CommentsClose part := by
  induction parts with
  | nil => simp
  | cons part rest ih =>
    cases rest with
    | nil => simp
    | cons next rest =>
      rw [List.intercalate_cons_cons, commentsClose_append, commentsClose_append, ih]
      simp

end Segments

def lineSegments (text : String) : List Segment :=
  if text.isEmpty then [] else [.code "\n    ", .comment text]

theorem written_lineSegments (text : String) : written (lineSegments text) = commentLine text := by
  rw [lineSegments, commentLine]
  split
  · rfl
  · rw [written_code, written_comment, written_nil, String.append_empty, ← String.append_assoc,
      ← String.append_assoc]
    rfl

@[simp] theorem commentsClose_lineSegments {text : String} :
    CommentsClose (lineSegments text) ↔ Text.StaysInside text := by
  rw [lineSegments]
  split
  · next h => simp [String.isEmpty_iff.1 h, Text.staysInside_empty]
  · simp

def propertySegments (nullable : Bool) (p : Property) : List Segment :=
  lineSegments (propertyComment p) ++ [.code (memberLine nullable p.required p.name p.type)]

def groupSegments (nullable : Bool) : PropertyGroup → List Segment
  | .inherited typeName => [.code typeName]
  | .fields properties =>
    .code "\x7b" :: (properties.map (propertySegments nullable)).flatten ++ [.code "\n  \x7d"]

def interfaceSegments (nullable : Bool) (i : Interface) : List Segment :=
  if i.isEnum || i.props.isEmpty then [.code (interfaceText nullable i)]
  else
    .code ("\n\n  type " ++ i.typeName ++ " = ") ::
      List.intercalate [.code " & "] (i.props.map (groupSegments nullable)) ++ [.code ";"]

def typingsSegments (nullable : Bool) (c : Client) : List Segment :=
  .code ("// @ts-ignore\n/* eslint-disable */\n\ndeclare namespace " ++ c.scope ++ " \x7b") ::
    (c.interfaces.map (interfaceSegments nullable)).flatten ++ [.code "\n\x7d\n"]

theorem written_propertySegments (nullable : Bool) :
    (written ∘ propertySegments nullable) = propertyText nullable := by
  funext p
  simp [propertySegments, propertyText, written_lineSegments]

theorem written_groupSegments (nullable : Bool) :
    (written ∘ groupSegments nullable) = groupText nullable := by
  funext group
  cases group with
  | inherited typeName => simp [groupSegments, groupText]
  | fields properties =>
    simp only [Function.comp_apply, groupSegments, groupText, List.cons_append, written_code,
      written_append, written_flatten, List.map_map, written_propertySegments, written_nil,
      String.append_empty, String.append_assoc]

theorem written_interfaceSegments (nullable : Bool) :
    (written ∘ interfaceSegments nullable) = interfaceText nullable := by
  funext i
  rw [Function.comp_apply, interfaceSegments]
  split
  · simp
  · next h =>
    obtain ⟨henum, hprops⟩ := Bool.or_eq_false_iff.1 (Bool.eq_false_iff.2 h)
    simp only [interfaceText, henum, hprops, Bool.false_eq_true, if_false, List.cons_append,
      written_code, written_append, written_intercalate, List.map_map, written_groupSegments,
      written_nil, String.append_empty, String.append_assoc]

theorem written_typingsSegments (nullable : Bool) (c : Client) :
    written (typingsSegments nullable c) = typings nullable c := by
  rw [typingsSegments, List.cons_append, written_code, written_append, written_flatten,
    List.map_map, written_interfaceSegments, written_code, written_nil, String.append_empty]
  exact String.append_assoc.symm

theorem commentsClose_typings {nullable : Bool} {c : Client} :
    CommentsClose (typingsSegments nullable c) ↔ ∀ i ∈ c.interfaces, i.isEnum = false →
      ∀ properties, .fields properties ∈ i.props → ∀ p ∈ properties,
        Text.StaysInside (propertyComment p) := by
  have hproperty : ∀ p, CommentsClose (propertySegments nullable p) ↔
      Text.StaysInside (propertyComment p) := by
    intro p
    simp [propertySegments]
  have hgroup : ∀ group, CommentsClose (groupSegments nullable group) ↔
      ∀ properties, group = .fields properties → ∀ p ∈ properties,
        Text.StaysInside (propertyComment p) := by
    intro group
    cases group <;> simp [groupSegments, commentsClose_flatten, hproperty]
  have hinterface : ∀ i : Interface, CommentsClose (interfaceSegments nullable i) ↔
      (i.isEnum = false → ∀ group ∈ i.props, CommentsClose (groupSegments nullable group)) := by
    intro i
    rw [interfaceSegments]
    split
    · next h =>
      obtain henum | hprops := Bool.or_eq_true_iff.1 h
      · simp [henum]
      · simp [List.isEmpty_iff.1 hprops]
    · next h =>
      obtain ⟨henum, -⟩ := Bool.or_eq_false_iff.1 (Bool.eq_false_iff.2 h)
      simp [henum, commentsClose_intercalate]
  simp only [typingsSegments, List.cons_append, commentsClose_code, commentsClose_append,
    commentsClose_flatten, commentsClose_nil, and_true, List.forall_mem_map, hinterface, hgroup]
  refine forall₂_congr fun i _ => forall_congr' fun _ => ?_
  constructor
  · intro hinside properties hmem
    exact hinside _ hmem properties rfl
  · rintro hinside _ hmem properties rfl
    exact hinside properties hmem

def headText (c : Call) : String :=
  (if c.description.isEmpty then "" else c.description ++ " ") ++ upperText c.method ++ " " ++
    c.pathInComment

def bodyPropertySegments (nullable : Bool) (p : BodyProperty) : List Segment :=
  lineSegments (p.description.getD "") ++ [.code (memberLine nullable p.required p.key p.type)]

def bodySegments (nullable : Bool) : Option Body → List Segment
  | none => []
  | some body =>
    match body.shape with
    | .properties properties =>
      .code "\n  body: \x7b" :: (properties.map (bodyPropertySegments nullable)).flatten ++
        [.code "\n  \x7d,"]
    | .whole type => [.code ("\n  body: " ++ type ++ ",")]

def callSegments (nullable : Bool) (c : Call) : Except Failure (List Segment) := do
  let bound ← bindings c
  return [.code "\n", .comment (headText c), .code "\n",
    .code ("export async function " ++ c.functionName ++ "(" ++ paramsParameter c)] ++
    bodySegments nullable c.body ++
    [.code (fileParameters c ++ "\n  options?: \x7b [key: string]: any \x7d,\n) \x7b" ++ bound ++
      formData c ++ request c)]

def serviceSegments (nullable : Bool) (requestLibPath : String) (u : ServiceUnit) :
    Except Failure (List Segment) := do
  let calls ← u.operations.mapM (callSegments nullable)
  return .code ("// @ts-ignore\n/* eslint-disable */\nimport \x7b request \x7d from '" ++
    requestLibPath ++ "';\n") :: calls.flatten

theorem written_bodySegments (nullable : Bool) (c : Call) :
    written (bodySegments nullable c.body) = bodyParameter nullable c := by
  have hproperty : written ∘ bodyPropertySegments nullable = bodyPropertyText nullable := by
    funext p
    simp [bodyPropertySegments, bodyPropertyText, written_lineSegments]
  rw [bodyParameter]
  cases c.body with
  | none => rfl
  | some body =>
    cases hshape : body.shape with
    | properties properties =>
      simp only [bodySegments, hshape, List.cons_append, written_code, written_append,
        written_flatten, List.map_map, hproperty, written_nil, String.append_empty,
        String.append_assoc]
    | whole type => simp [bodySegments, hshape]

theorem headComment_eq (c : Call) :
    headComment c = "\n" ++ ("/** " ++ headText c ++ " */") ++ "\n" := by
  have hstart : "\n/** " = "\n" ++ "/** " := rfl
  have hend : " */\n" = " */" ++ "\n" := rfl
  simp only [headComment, headText, hstart, hend, String.append_assoc]

theorem callText_eq (nullable : Bool) (c : Call) :
    callText nullable c = (callSegments nullable c).map written := by
  rw [callText, callSegments]
  cases bindings c with
  | error cause => rfl
  | ok bound =>
    refine congrArg Except.ok ?_
    unfold signature
    simp only [headComment_eq, List.cons_append, List.nil_append, written_code, written_comment,
      written_append, written_bodySegments, written_nil, String.append_empty, String.append_assoc]

theorem mapM_map {α β γ ε : Type} (f : α → Except ε β) (g : β → γ) (l : List α) :
    l.mapM (fun a => (f a).map g) = (l.mapM f).map (List.map g) := by
  induction l with
  | nil => rfl
  | cons a l ih =>
    rw [List.mapM_cons, List.mapM_cons, ih]
    cases f a with
    | error cause => rfl
    | ok b => cases l.mapM f <;> rfl

theorem service_eq (nullable : Bool) (requestLibPath : String) (u : ServiceUnit) :
    service nullable requestLibPath u =
      (serviceSegments nullable requestLibPath u).map written := by
  have hcalls : callText nullable = fun c => (callSegments nullable c).map written :=
    funext (callText_eq nullable)
  rw [service, serviceSegments, hcalls, mapM_map]
  cases u.operations.mapM (callSegments nullable) with
  | error cause => rfl
  | ok calls =>
    exact congrArg Except.ok
      ((written_code _).trans (congrArg (_ ++ ·) (written_flatten calls))).symm

def BodyDescribes (b : Body) (text : String) : Prop :=
  ∃ properties, b.shape = .properties properties ∧ ∃ p ∈ properties, p.description = some text

theorem commentsClose_bodySegments {nullable : Bool} {body : Option Body} :
    CommentsClose (bodySegments nullable body) ↔
      ∀ b, body = some b → ∀ text, BodyDescribes b text → Text.StaysInside text := by
  have hproperty : ∀ p, CommentsClose (bodyPropertySegments nullable p) ↔
      ∀ text, p.description = some text → Text.StaysInside text := by
    intro p
    cases hp : p.description <;> simp [bodyPropertySegments, hp, Text.staysInside_empty]
  cases body with
  | none => simp [bodySegments]
  | some b =>
    cases hshape : b.shape with
    | properties properties =>
      simp only [bodySegments, hshape, List.cons_append, commentsClose_code, commentsClose_append,
        commentsClose_flatten, List.forall_mem_map, hproperty, commentsClose_nil, and_true]
      constructor
      · intro hinside b' hb text hdescribes
        cases hb
        obtain ⟨_, hsame, p, hp, htext⟩ := hdescribes
        cases hshape.symm.trans hsame
        exact hinside p hp text htext
      · intro hinside p hp text htext
        exact hinside b rfl text ⟨properties, hshape, p, hp, htext⟩
    | whole type => simp [bodySegments, hshape, BodyDescribes]

theorem commentsClose_service {nullable : Bool} {requestLibPath : String} {u : ServiceUnit}
    {segments : List Segment} (h : serviceSegments nullable requestLibPath u = .ok segments) :
    CommentsClose segments ↔ ∀ call ∈ u.operations, Text.StaysInside (headText call) ∧
      ∀ b, call.body = some b → ∀ text, BodyDescribes b text → Text.StaysInside text := by
  obtain ⟨calls, hcalls, h⟩ := bind_eq_ok.1 h
  cases h
  rw [commentsClose_code, commentsClose_flatten]
  have hcall : ∀ call part, callSegments nullable call = .ok part → (CommentsClose part ↔
      Text.StaysInside (headText call) ∧
        ∀ b, call.body = some b → ∀ text, BodyDescribes b text → Text.StaysInside text) := by
    intro call part hpart
    obtain ⟨bound, -, hpart⟩ := bind_eq_ok.1 hpart
    cases hpart
    simp [commentsClose_bodySegments]
  have hparts := forall₂_of_mapM hcalls
  constructor
  · intro hclose call hmem
    obtain ⟨part, hpart, heq⟩ := exists_of_forall₂_left hparts hmem
    exact (hcall call part heq).1 (hclose part hpart)
  · intro hclose part hpart
    obtain ⟨call, hmem, heq⟩ := exists_of_forall₂ hparts hpart
    exact (hcall call part heq).2 (hclose call hmem)

end Render

end ApiClient
