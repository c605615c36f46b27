import ApiClient.Proofs.Pointers
import ApiClient.Proofs.UnionShape

namespace ApiClient

namespace Text

theorem trim_cons_blank {c : Char} (hc : isBlank c = true) (cs : List Char) :
    trim (c :: cs) = trim cs := by
  rw [trim, trimStart, List.dropWhile_cons, if_pos hc]
  rfl

theorem trim_concat_blank {c : Char} (hc : isBlank c = true) (cs : List Char) :
    trim (cs ++ [c]) = trim cs := by
  rw [trim, trimStart, List.dropWhile_append]
  split
  · next hnone =>
    rw [trim, trimStart, List.isEmpty_iff.1 hnone]
    simp [hc]
  · rw [trimEnd_concat, if_pos hc]
    rfl

end Text

namespace Typing

def cutFrom (op : Char) (s : Scan) : List Char → List (List Char)
  | [] => [[]]
  | c :: rest =>
    if s.isJoint c && c == op then [] :: cutFrom op (s.step c) rest
    else (cutFrom op (s.step c) rest).modifyHead (c :: ·)

/-- What a type text says outside of brackets and quotes. The brackets of an array bind closer than
any operator, so they belong to an operand. -/
inductive Reading where
  | operand (text : String)
  | intersection (parts : List Reading)
  | union (parts : List Reading)

namespace Reading

/-- A single part stands for itself. -/
def joined (join : List Reading → Reading) : List Reading → Reading
  | [part] => part
  | parts => join parts

def ofFactors (cs : List Char) : Reading :=
  joined .intersection ((cutFrom '&' .start cs).map fun piece =>
    .operand (String.ofList (Text.trim piece)))

/-- Bars are looked for first: they bind weaker than ampersands. -/
def ofText (text : String) : Reading :=
  joined .union ((cutFrom '|' .start text.toList).map ofFactors)

end Reading

section Cutting

variable {op : Char} {s : Scan} {cs rest piece : List Char} {pieces : List (List Char)}

theorem length_cutFrom (op : Char) (s : Scan) (cs : List Char) :
    (cutFrom op s cs).length = (operatorsFrom s cs).count op + 1 := by
  induction cs generalizing s with
  | nil => rfl
  | cons c rest ih =>
    rw [cutFrom, operatorsFrom]
    cases hjoint : s.isJoint c with
    | false => simp [ih]
    | true =>
      by_cases hc : c = op
      · simp [hc, ih]
      · simp [hc, ih]

theorem cutFrom_append (h : op ∉ operatorsFrom s cs)
    (hrest : cutFrom op (cs.foldl Scan.step s) rest = piece :: pieces) :
    cutFrom op s (cs ++ rest) = (cs ++ piece) :: pieces := by
  induction cs generalizing s with
  | nil => exact hrest
  | cons c cs ih =>
    have hkeep : (s.isJoint c && c == op) = false ∧ op ∉ operatorsFrom (s.step c) cs := by
      rw [operatorsFrom] at h
      split at h
      · next hjoint =>
        rw [List.mem_cons, not_or] at h
        exact ⟨by simp [Ne.symm h.1], h.2⟩
      · next hjoint => exact ⟨by simp [hjoint], h⟩
    rw [List.cons_append, cutFrom, hkeep.1, if_neg Bool.false_ne_true, ih hkeep.2 hrest]
    rfl

theorem cutFrom_of_notMem (h : op ∉ operatorsFrom s cs) : cutFrom op s cs = [cs] := by
  have hend : cutFrom op (cs.foldl Scan.step s) [] = [[]] := rfl
  simpa using cutFrom_append h hend

theorem map_trim_cutFrom_intercalate {texts : List String} (hne : texts ≠ [])
    (h : ∀ text ∈ texts, IsOperand text) :
    (cutFrom '&' .start (" & ".intercalate texts).toList).map Text.trim =
      texts.map fun text => Text.trim text.toList := by
  induction texts with
  | nil => exact absurd rfl hne
  | cons text rest ih =>
    obtain ⟨htext, hrest⟩ := List.forall_mem_cons.1 h
    have hwhole : '&' ∉ operatorsFrom .start text.toList := by
      have hnone := htext.undivided
      rw [operators] at hnone
      rw [hnone]
      exact List.not_mem_nil
    cases rest with
    | nil => simp [cutFrom_of_notMem hwhole]
    | cons next rest =>
      have hblank : Text.isBlank ' ' = true := by decide
      have ih := ih (List.cons_ne_nil next rest) hrest
      cases hpieces : cutFrom '&' .start (" & ".intercalate (next :: rest)).toList with
      | nil =>
        rw [hpieces] at ih
        cases ih
      | cons piece pieces =>
        have hmark : cutFrom '&' (text.toList.foldl Scan.step .start)
            (" & ".toList ++ (" & ".intercalate (next :: rest)).toList) =
              [' '] :: (' ' :: piece) :: pieces := by
          rw [Scan.start, htext.balanced.scan]
          change [' '] ::
            (cutFrom '&' .start (" & ".intercalate (next :: rest)).toList).modifyHead (' ' :: ·) = _
          rw [hpieces]
          rfl
        rw [hpieces, List.map_cons] at ih
        rw [String.intercalate_cons_cons, String.append_assoc, String.toList_append,
          String.toList_append, cutFrom_append hwhole hmark, List.map_cons, List.map_cons,
          List.map_cons, Text.trim_concat_blank hblank, Text.trim_cons_blank hblank, ih]

end Cutting

namespace Reading

section Texts

variable {text : String} {texts : List String}

theorem joined_of_length_ne (join : List Reading → Reading) {parts : List Reading}
    (h : parts.length ≠ 1) : joined join parts = join parts := by
  match parts with
  | [] => rfl
  | [part] => exact absurd rfl h
  | _ :: _ :: _ => rfl

theorem ofText_of_notMem (h : '|' ∉ operators text) : ofText text = ofFactors text.toList := by
  rw [ofText, cutFrom_of_notMem h]
  rfl

theorem ofText_of_mem (h : '|' ∈ operators text) : ∃ parts, ofText text = .union parts := by
  have hcount : 0 < (operators text).count '|' := List.count_pos_iff.2 h
  have hlength := length_cutFrom '|' .start text.toList
  rw [← operators] at hlength
  exact ⟨_, joined_of_length_ne .union (by rw [List.length_map, hlength]; omega)⟩

example : ofText "A | B[] & C" =
    .union [.operand "A", .intersection [.operand "B[]", .operand "C"]] := by
  rfl

theorem ofText_operand (h : IsOperand text) : ofText text = .operand (Text.trimText text) := by
  have hnone (op : Char) : op ∉ operators text := by
    rw [h.undivided]
    exact List.not_mem_nil
  rw [ofText_of_notMem (hnone '|'), ofFactors, cutFrom_of_notMem (hnone '&')]
  rfl

theorem balanced_and : Balanced " & ".toList :=
  balanced_of_plain (by decide)

theorem ofText_intersection (hne : texts ≠ []) (h : ∀ text ∈ texts, IsOperand text) :
    ofText (" & ".intercalate texts) = joined .intersection (texts.map ofText) := by
  have hbalanced : ∀ text ∈ texts, Balanced text.toList := fun text htext => (h text htext).balanced
  have hbar : '|' ∉ operators (" & ".intercalate texts) := by
    rw [mem_operators_intercalate balanced_and (by decide) hbalanced]
    rintro ⟨text, htext, hmem⟩
    rw [(h text htext).undivided] at hmem
    cases hmem
  have hparts : texts.map ofText = texts.map fun text => .operand (Text.trimText text) :=
    List.map_congr_left fun text htext => ofText_operand (h text htext)
  have hpieces := congrArg (List.map fun piece => Reading.operand (String.ofList piece))
    (map_trim_cutFrom_intercalate hne h)
  rw [List.map_map, List.map_map] at hpieces
  rw [ofText_of_notMem hbar, hparts, ofFactors]
  exact congrArg (joined .intersection) hpieces

end Texts

end Reading

variable [Text.Transliteration]

def factorsText (t : Typing) (s : Schema) : String :=
  " & ".intercalate (t.nodeTypes s.allOf)

/-- An intersection is read as that of its members, each of them whole, exactly when it has no other
member or none of its members is a union. -/
theorem intersection_read_iff (t : Typing) (hplain : t.override = Overrides.none.typeExpression)
    (hscope : t.scope.toList.all isInert = true) (s : Schema) (hform : s.form = .intersection)
    (h : (SchemaNode.schema s).LiteralFree) :
    t.nodeType (.schema s) = "(" ++ t.factorsText s ++ ")" ∧
    ('|' ∈ operators (t.factorsText s) ↔ ∃ member ∈ s.allOf, t.IsUnion member) ∧
    (Reading.ofText (t.factorsText s) =
        .joined .intersection (s.allOf.map fun member => .ofText (t.nodeType member)) ↔
      s.allOf.length = 1 ∨ ∀ member ∈ s.allOf, ¬ t.IsUnion member) := by
  have hmembers : ∀ member ∈ s.allOf, IsDivided (t.nodeType member) (t.IsUnion member) := by
    intro member hmember
    cases h with
    | schema hchildren =>
      exact isDivided_nodeType hplain hscope (hchildren _ (Schema.mem_children_of_allOf hmember))
  have hbar : '|' ∈ operators (t.factorsText s) ↔ ∃ member ∈ s.allOf, t.IsUnion member := by
    rw [factorsText, nodeTypes_eq_map, mem_operators_intercalate Reading.balanced_and (by decide)
      (List.forall_mem_map.2 fun member hmember => (hmembers member hmember).balanced)]
    simp only [List.mem_map, exists_exists_and_eq_and]
    refine exists_congr fun member => and_congr_right fun hmember => ?_
    exact (hmembers member hmember).bar_iff
  refine ⟨?_, hbar, ?_⟩
  · rw [nodeType_schema hplain, schemaType_eq, hform]
    rfl
  by_cases hone : s.allOf.length = 1
  · obtain ⟨member, hmember⟩ := List.length_eq_one_iff.1 hone
    refine iff_of_true ?_ (.inl hone)
    rw [factorsText, nodeTypes_eq_map, hmember, List.map_singleton, String.intercalate_singleton]
    rfl
  rw [or_iff_right hone]
  have hseveral : (s.allOf.map fun member => Reading.ofText (t.nodeType member)).length ≠ 1 := by
    rwa [List.length_map]
  by_cases hunion : ∃ member ∈ s.allOf, t.IsUnion member
  · -- A bar of a member divides the text before any ampersand does.
    obtain ⟨parts, hparts⟩ := Reading.ofText_of_mem (hbar.2 hunion)
    obtain ⟨member, hmember, hdivided⟩ := hunion
    refine iff_of_false ?_ fun hwhole => hwhole member hmember hdivided
    rw [hparts, Reading.joined_of_length_ne .intersection hseveral]
    exact nofun
  · have hwhole : ∀ member ∈ s.allOf, ¬ t.IsUnion member := by simpa using hunion
    refine iff_of_true ?_ hwhole
    have hoperands : ∀ text ∈ s.allOf.map t.nodeType, IsOperand text :=
      List.forall_mem_map.2 fun member hmember =>
        (hmembers member hmember).isOperand (hwhole member hmember)
    have hne : s.allOf.map t.nodeType ≠ [] := by
      simpa using Schema.allOf_of_intersection hform
    rw [factorsText, nodeTypes_eq_map, Reading.ofText_intersection hne hoperands, List.map_map]
    rfl

end Typing

end ApiClient

namespace ApiClient

def eitherNode : SchemaNode :=
  .schema { Schema.empty with
    oneOf := [.reference "#/components/schemas/A", .reference "#/components/schemas/B"] }

theorem eitherNode_literalFree : eitherNode.LiteralFree :=
  .schema (List.forall_mem_cons.2 ⟨.reference _, List.forall_mem_singleton.2 (.reference _)⟩)

/-- The union is the item of an array and the value of a property with a bar in its name. -/
def guardedSchema : Schema :=
  { Schema.empty with
    allOf := [.schema { Schema.ofType "array" with items := some (.single eitherNode) },
      .schema { Schema.ofType "object" with properties := some [("it's | &", eitherNode)] },
      .reference "#/components/schemas/C"] }

theorem guardedSchema_literalFree : (SchemaNode.schema guardedSchema).LiteralFree := by
  refine .schema (List.forall_mem_cons.2 ⟨?_, List.forall_mem_cons.2 ⟨?_, ?_⟩⟩)
  · exact .schema (List.forall_mem_singleton.2 eitherNode_literalFree)
  · exact .schema (List.forall_mem_singleton.2 eitherNode_literalFree)
  · exact List.forall_mem_singleton.2 (.reference _)

theorem guardedSchema_members : ∀ member ∈ guardedSchema.allOf,
    ¬ (Typing.plain "API").IsUnion member := by
  refine List.forall_mem_cons.2 ⟨fun h => ?_, List.forall_mem_cons.2 ⟨fun h => ?_, ?_⟩⟩
  · exact absurd (Typing.form_of_isUnion h) (by decide)
  · exact absurd (Typing.form_of_isUnion h) (by decide)
  · exact List.forall_mem_singleton.2 nofun

theorem guardedSchema_read : (Typing.plain "API").override = Overrides.none.typeExpression ∧
    (Typing.plain "API").scope.toList.all Typing.isInert = true ∧
    guardedSchema.form = .intersection ∧ (SchemaNode.schema guardedSchema).LiteralFree ∧
    '|' ∉ Typing.operators ((Typing.plain "API").factorsText guardedSchema) ∧
    Typing.Reading.ofText ((Typing.plain "API").factorsText guardedSchema) =
      .joined .intersection (guardedSchema.allOf.map fun member =>
        .ofText ((Typing.plain "API").nodeType member)) := by
  have hscope : (Typing.plain "API").scope.toList.all Typing.isInert = true := by decide
  have hform : guardedSchema.form = .intersection := by decide
  obtain ⟨-, hbar, hread⟩ := Typing.intersection_read_iff (Typing.plain "API") rfl hscope
    guardedSchema hform guardedSchema_literalFree
  refine ⟨rfl, hscope, hform, guardedSchema_literalFree, ?_, hread.2 (.inr guardedSchema_members)⟩
  intro hmem
  obtain ⟨member, hmember, hunion⟩ := hbar.1 hmem
  exact guardedSchema_members member hmember hunion

/-- The union is a member itself. -/
def splitSchema : Schema :=
  { Schema.empty with allOf := [eitherNode, .reference "#/components/schemas/C"] }

theorem not_intersection_read : ¬ ∀ (t : Typing), t.override = Overrides.none.typeExpression →
    t.scope.toList.all Typing.isInert = true → ∀ s : Schema, s.form = .intersection →
      (SchemaNode.schema s).LiteralFree → Typing.Reading.ofText (t.factorsText s) =
        .joined .intersection (s.allOf.map fun member => .ofText (t.nodeType member)) := by
  intro reads
  have hscope : (Typing.plain "API").scope.toList.all Typing.isInert = true := by decide
  have hfree : (SchemaNode.schema splitSchema).LiteralFree :=
    .schema (List.forall_mem_cons.2
      ⟨eitherNode_literalFree, List.forall_mem_singleton.2 (.reference _)⟩)
  have hbar : '|' ∈ Typing.operators ((Typing.plain "API").factorsText splitSchema) := by
    decide +kernel
  obtain ⟨parts, hparts⟩ := Typing.Reading.ofText_of_mem hbar
  have hread := reads (Typing.plain "API") rfl hscope splitSchema (by decide) hfree
  rw [hparts] at hread
  exact nomatch hread

end ApiClient
