import ApiClient.Proofs.Balance
import ApiClient.Proofs.Literals
import ApiClient.Proofs.ResponseMarks
import ApiClient.Proofs.UnitNames
import ApiClient.Proofs.WrittenUnions

namespace ApiClient

def Items.nodes : Items → List SchemaNode
  | .tuple members => members
  | .single item => [item]

def EnumEntry.reading? : EnumEntry → Option SchemaNode
  | .scalar _ => none
  | .composite _ reading => some reading

/-- The nodes right below a schema, those that enumerated values are read as included. -/
def Schema.children (s : Schema) : List SchemaNode :=
  (s.properties.getD []).map Prod.snd ++ (s.items.map Items.nodes).getD [] ++
    (s.enum.getD []).filterMap EnumEntry.reading? ++ s.allOf ++ s.oneOf ++ s.anyOf

namespace Schema

variable {s : Schema} {node : SchemaNode}

theorem mem_children_of_members {member : String × SchemaNode} (h : member ∈ s.members) :
    member.2 ∈ s.children := by
  rw [members] at h
  split at h
  · have hnode := List.mem_map_of_mem (f := Prod.snd) h
    simp only [children, List.append_assoc]
    exact List.mem_append_left _ hnode
  · cases h

theorem mem_children_of_items {items : Items} (hitems : s.items = some items)
    (h : node ∈ items.nodes) : node ∈ s.children := by
  simp [children, hitems, h]

theorem mem_children_of_enum {entries : List EnumEntry} (henum : s.enum = some entries) {v : Json}
    (h : .composite v node ∈ entries) : node ∈ s.children := by
  have hreading : node ∈ entries.filterMap EnumEntry.reading? :=
    List.mem_filterMap.2 ⟨_, h, rfl⟩
  simp only [children, henum, Option.getD_some, List.mem_append]
  exact .inl (.inl (.inl (.inr hreading)))

theorem mem_children_of_allOf (h : node ∈ s.allOf) : node ∈ s.children := by
  simp [children, h]

theorem mem_children_of_union (h : node ∈ s.oneOf ++ s.anyOf) : node ∈ s.children := by
  rw [children, List.append_assoc]
  exact List.mem_append_right _ h

theorem ite_ne {p : Prop} [Decidable p] {a b other : Form} (ha : a ≠ other) (hb : b ≠ other) :
    (if p then a else b) ≠ other := by
  split
  · exact ha
  · exact hb

theorem members_of_union (hform : s.form = .union) : s.oneOf ++ s.anyOf ≠ [] := by
  intro hnone
  obtain ⟨hone, hany⟩ := List.append_eq_nil_iff.1 hnone
  have hempty : (!s.oneOf.isEmpty || !s.anyOf.isEmpty) = false := by rw [hone, hany]; rfl
  refine absurd hform ?_
  rw [form, hempty, if_neg Bool.false_ne_true]
  repeat' refine ite_ne (by decide) ?_
  decide

theorem allOf_of_intersection (hform : s.form = .intersection) : s.allOf ≠ [] := by
  intro hnone
  have hempty : (!s.allOf.isEmpty) = false := by rw [hnone]; rfl
  refine absurd hform ?_
  rw [form, hempty, if_neg Bool.false_ne_true]
  repeat' refine ite_ne (by decide) ?_
  decide

end Schema

/-- A tree in which no node is a ready type text. -/
inductive SchemaNode.LiteralFree : SchemaNode → Prop
  | reference (path : String) : LiteralFree (.reference path)
  | other (value : Json) : LiteralFree (.other value)
  | schema {s : Schema} : (∀ child ∈ s.children, LiteralFree child) → LiteralFree (.schema s)

namespace Typing

section Texts

/-- A balanced text that only bars divide, and that is divided exactly if `union` holds. -/
structure IsDivided (text : String) (union : Prop) : Prop where
  balanced : Balanced text.toList
  bars : ∀ op ∈ operators text, op = '|'
  divided_iff : operators text ≠ [] ↔ union

variable {text : String} {texts : List String} {union : Prop}

theorem IsOperand.isDivided (h : IsOperand text) (hunion : ¬ union) : IsDivided text union where
  balanced := h.balanced
  bars := by
    rw [h.undivided]
    exact nofun
  divided_iff := iff_of_false (fun hne => hne h.undivided) hunion

theorem IsDivided.isOperand (h : IsDivided text union) (hunion : ¬ union) : IsOperand text where
  balanced := h.balanced
  undivided := by simpa [hunion] using h.divided_iff

theorem IsDivided.congr {other : Prop} (h : IsDivided text union) (hiff : union ↔ other) :
    IsDivided text other where
  balanced := h.balanced
  bars := h.bars
  divided_iff := h.divided_iff.trans hiff

theorem IsDivided.bar_iff (h : IsDivided text union) : '|' ∈ operators text ↔ union := by
  rw [← h.divided_iff]
  refine ⟨List.ne_nil_of_mem, fun hne => ?_⟩
  obtain ⟨op, hop⟩ := List.exists_mem_of_ne_nil _ hne
  rwa [h.bars op hop] at hop

theorem balanced_bar : Balanced " | ".toList :=
  balanced_of_plain (by decide)

theorem isDivided_unionOf {ι : Type} {items : List ι} {f : ι → String} {union : ι → Prop}
    (hne : texts ≠ []) (hmem : ∀ text, text ∈ texts ↔ ∃ i ∈ items, f i = text)
    (h : ∀ i ∈ items, IsDivided (f i) (union i)) :
    IsDivided (unionOf texts)
      (2 ≤ texts.length ∨ texts.length = 1 ∧ ∃ i ∈ items, union i) := by
  have hbar : operators " | " = ['|'] := by decide
  have hbalanced : ∀ text ∈ texts, Balanced text.toList := by
    intro text htext
    obtain ⟨i, hi, rfl⟩ := (hmem text).1 htext
    exact (h i hi).balanced
  have hoperators := operators_intercalate balanced_bar hbalanced
  rw [hbar] at hoperators
  refine ⟨balanced_intercalate balanced_bar hbalanced, ?_, ?_⟩
  · intro op hop
    rw [unionOf, hoperators] at hop
    obtain hop | ⟨part, hpart, hop⟩ := Naming.mem_intercalate hop
    · exact List.mem_singleton.1 hop
    · obtain ⟨text, htext, rfl⟩ := List.mem_map.1 hpart
      obtain ⟨i, hi, rfl⟩ := (hmem text).1 htext
      exact (h i hi).bars op hop
  · rw [unionOf, hoperators]
    cases texts with
    | nil => exact absurd rfl hne
    | cons text rest =>
      cases rest with
      | nil =>
        have hitems : (∃ i ∈ items, union i) ↔ operators text ≠ [] := by
          constructor
          · rintro ⟨i, hi, hunion⟩
            rw [← List.mem_singleton.1 ((hmem (f i)).2 ⟨i, hi, rfl⟩)]
            exact (h i hi).divided_iff.2 hunion
          · intro hdivided
            obtain ⟨i, hi, rfl⟩ := (hmem text).1 (List.mem_singleton_self text)
            exact ⟨i, hi, (h i hi).divided_iff.1 hdivided⟩
        simp [hitems]
      | cons next rest => simp [List.intercalate_cons_cons]

end Texts

section Operands

theorem isInert_of_isIdentifierChar {c : Char} (h : Naming.IsIdentifierChar c) :
    isInert c = true :=
  Text.forall_ascii (P := fun c => Naming.IsIdentifierChar c → isInert c = true)
    (by decide +kernel) h.toNat_lt h

theorem isInert_of_isNumeralChar {c : Char} (h : Number.isNumeralChar c = true) :
    isInert c = true := by
  simp only [Number.isNumeralChar, Bool.or_eq_true, beq_iff_eq, or_assoc] at h
  obtain hdigit | rfl | rfl | rfl | rfl := h
  · exact isInert_of_isIdentifierChar (.inl (by simp [Char.isAlphanum, hdigit]))
  all_goals decide

theorem isOperand_any : IsOperand any :=
  isOperand_of_inert (by decide)

theorem isOperand_anyRecord : IsOperand anyRecord := by
  have hpair : ('<', '>') ∈ brackets := by decide
  have harguments : Balanced "string, any".toList := balanced_of_plain (by decide)
  have hname : IsOperand "Record" := isOperand_of_inert (by decide)
  have hrecord := hname.append (isOperand_enclosed hpair harguments)
  exact hrecord

theorem isOperand_scalarLiteral (v : Json) : IsOperand (scalarLiteral v) := by
  cases v with
  | string s => exact isOperand_quoted rfl s
  | number n =>
    have hnumeral := Number.isNumeral_text n
    refine isOperand_of_inert (List.all_eq_true.2 fun c hc => ?_)
    exact isInert_of_isNumeralChar (hnumeral.chars c hc)
  | bool b => cases b <;> exact isOperand_of_inert (by decide)
  | _ => exact isOperand_any

theorem isOperand_parenthesized {text : String} (h : Balanced text.toList) :
    IsOperand ("(" ++ text ++ ")") := by
  have hpair : ('(', ')') ∈ brackets := by decide
  have henclosed := isOperand_enclosed hpair h
  exact henclosed

theorem isOperand_bracketed {text : String} (h : Balanced text.toList) :
    IsOperand ("[" ++ text ++ "]") := by
  have hpair : ('[', ']') ∈ brackets := by decide
  have henclosed := isOperand_enclosed hpair h
  exact henclosed

theorem isOperand_brackets : IsOperand "[]" := by
  have hempty : Balanced "".toList := .nil
  exact isOperand_bracketed hempty

theorem isOperand_arrayOf {item : String} (h : Balanced item.toList) :
    IsOperand (arrayOf item) := by
  rw [arrayOf]
  split
  · have harray := (isOperand_parenthesized h).append isOperand_brackets
    rwa [String.append_assoc] at harray
  · next hjoins =>
    have hitem : IsOperand item := ⟨h, by simpa [joins_iff] using hjoins⟩
    exact hitem.append isOperand_brackets

theorem balanced_memberText {type : String} (h : Balanced type.toList) (nullable required : Bool)
    (key : String) : Balanced (memberText nullable required key type).toList := by
  have hkey : Balanced (Text.quoteKey key).toList := (isOperand_quoted rfl key).balanced
  have haround {before after : String} (hbefore : before.toList.all isPlain = true)
      (hafter : after.toList.all isPlain = true) :
      Balanced (Text.quoteKey key ++ before ++ type ++ after).toList :=
    balanced_append (balanced_append (balanced_append hkey (balanced_of_plain hbefore)) h)
      (balanced_of_plain hafter)
  rw [memberText]
  split
  · exact haround (by decide) (by decide)
  · split
    · exact haround (by decide) (by decide)
    · exact haround (by decide) (by decide)

theorem isOperand_objectOf {members : List String} (h : ∀ text ∈ members, Balanced text.toList) :
    IsOperand (objectOf members) := by
  rw [objectOf]
  split
  · exact isOperand_anyRecord
  · have hinside : Balanced (" " ++ String.join members).toList :=
      balanced_append (balanced_of_plain (by decide)) (balanced_join h)
    have hpair : ('\x7b', '\x7d') ∈ brackets := by decide
    have hobject := isOperand_enclosed hpair hinside
    rw [← String.append_assoc] at hobject
    exact hobject

end Operands

variable [Text.Transliteration]

/-- A schema that is written as a union: it lists at least two values or members, or the only one
that it lists is a union. -/
inductive IsUnion (t : Typing) : SchemaNode → Prop
  | values {s : Schema} {entries : List EnumEntry} : s.form = .enumeration →
      s.enum = some entries → 2 ≤ (distinct (t.literals entries)).length → IsUnion t (.schema s)
  | value {s : Schema} {entries : List EnumEntry} {v : Json} {reading : SchemaNode} :
      s.form = .enumeration → s.enum = some entries →
      (distinct (t.literals entries)).length = 1 → .composite v reading ∈ entries →
      IsUnion t reading → IsUnion t (.schema s)
  | members {s : Schema} : s.form = .union → 2 ≤ (s.oneOf ++ s.anyOf).length →
      IsUnion t (.schema s)
  | member {s : Schema} {node : SchemaNode} : s.form = .union → s.oneOf ++ s.anyOf = [node] →
      IsUnion t node → IsUnion t (.schema s)

variable {t : Typing}

theorem nodeTypes_eq_map (t : Typing) (nodes : List SchemaNode) :
    t.nodeTypes nodes = nodes.map t.nodeType := by
  induction nodes with
  | nil => rfl
  | cons node rest ih => rw [nodeTypes, ih, List.map_cons]

section Schemas

variable {s : Schema}

theorem isUnion_enumeration_iff {entries : List EnumEntry} (hform : s.form = .enumeration)
    (henum : s.enum = some entries) : t.IsUnion (.schema s) ↔
      2 ≤ (distinct (t.literals entries)).length ∨ (distinct (t.literals entries)).length = 1 ∧
        ∃ v reading, .composite v reading ∈ entries ∧ t.IsUnion reading := by
  constructor
  · intro h
    cases h with
    | values _ hsome htwo =>
      cases henum.symm.trans hsome
      exact .inl htwo
    | value _ hsome hone hmem hunion =>
      cases henum.symm.trans hsome
      exact .inr ⟨hone, _, _, hmem, hunion⟩
    | members hother | member hother => exact nomatch hform.symm.trans hother
  · rintro (htwo | ⟨hone, v, reading, hmem, hunion⟩)
    · exact .values hform henum htwo
    · exact .value hform henum hone hmem hunion

theorem isUnion_union_iff (hform : s.form = .union) : t.IsUnion (.schema s) ↔
    2 ≤ (s.oneOf ++ s.anyOf).length ∨ (s.oneOf ++ s.anyOf).length = 1 ∧
      ∃ node ∈ s.oneOf ++ s.anyOf, t.IsUnion node := by
  constructor
  · intro h
    cases h with
    | members _ htwo => exact .inl htwo
    | member _ hone hunion =>
      rw [hone]
      exact .inr ⟨rfl, _, List.mem_singleton_self _, hunion⟩
    | values hother | value hother => exact nomatch hform.symm.trans hother
  · rintro (htwo | ⟨hlength, node, hnode, hunion⟩)
    · exact .members hform htwo
    · obtain ⟨only, hone⟩ := List.length_eq_one_iff.1 hlength
      rw [hone] at hnode
      obtain rfl := List.mem_singleton.1 hnode
      exact .member hform hone hunion

theorem form_of_isUnion (h : t.IsUnion (.schema s)) : s.form = .enumeration ∨ s.form = .union := by
  cases h with
  | values hform | value hform => exact .inl hform
  | members hform | member hform => exact .inr hform

theorem isOperand_itemsType {items : Items}
    (h : ∀ node ∈ items.nodes, Balanced (t.nodeType node).toList) :
    IsOperand (t.itemsType items) := by
  cases items with
  | tuple members =>
    have hmark : Balanced ", ".toList := balanced_of_plain (by decide)
    rw [itemsType, nodeTypes_eq_map]
    exact isOperand_bracketed (balanced_intercalate hmark (List.forall_mem_map.2 h))
  | single item =>
    rw [itemsType]
    exact isOperand_arrayOf (h item (List.mem_singleton_self item))

theorem isOperand_schemaType (henumeration : s.form ≠ .enumeration) (hunion : s.form ≠ .union)
    (h : ∀ child ∈ s.children, Balanced (t.nodeType child).toList) :
    IsOperand (t.schemaType s) := by
  cases hform : s.form with
  | enumeration => exact absurd hform henumeration
  | union => exact absurd hform hunion
  | object =>
    rw [schemaType_object hform]
    refine isOperand_objectOf (List.forall_mem_map.2 fun member hmember => ?_)
    exact balanced_memberText (h _ (Schema.mem_children_of_members hmember)) _ _ _
  | array =>
    rw [schemaType_eq, hform]
    cases hitems : s.items with
    | none => exact isOperand_any.append isOperand_brackets
    | some items =>
      exact isOperand_itemsType fun node hnode => h _ (Schema.mem_children_of_items hitems hnode)
  | intersection =>
    have hmark : Balanced " & ".toList := balanced_of_plain (by decide)
    rw [schemaType_eq, hform]
    dsimp only
    rw [nodeTypes_eq_map]
    refine isOperand_parenthesized (balanced_intercalate hmark (List.forall_mem_map.2 ?_))
    exact fun node hnode => h _ (Schema.mem_children_of_allOf hnode)
  | _ =>
    rw [schemaType_eq, hform]
    dsimp only
    exact isOperand_of_inert (by decide)

theorem isDivided_entryType {entry : EnumEntry} (h : ∀ v reading, entry = .composite v reading →
      IsDivided (t.nodeType reading) (t.IsUnion reading)) :
    IsDivided (t.entryType entry)
      (∃ v reading, entry = .composite v reading ∧ t.IsUnion reading) := by
  cases entry with
  | scalar v => exact (isOperand_scalarLiteral v).isDivided (by simp)
  | composite v reading => simpa [entryType] using h v reading rfl

theorem isDivided_enumUnion {entries : List EnumEntry} (h : ∀ v reading,
      .composite v reading ∈ entries → IsDivided (t.nodeType reading) (t.IsUnion reading)) :
    IsDivided (enumUnion (t.literals entries))
      (2 ≤ (distinct (t.literals entries)).length ∨ (distinct (t.literals entries)).length = 1 ∧
        ∃ v reading, .composite v reading ∈ entries ∧ t.IsUnion reading) := by
  have hentries : ∀ entry ∈ entries, IsDivided (t.entryType entry)
      (∃ v reading, entry = .composite v reading ∧ t.IsUnion reading) := by
    intro entry hentry
    refine isDivided_entryType ?_
    rintro v reading rfl
    exact h v reading hentry
  have hreadings : (∃ entry ∈ entries, ∃ v reading, entry = .composite v reading ∧
      t.IsUnion reading) ↔ ∃ v reading, .composite v reading ∈ entries ∧ t.IsUnion reading := by
    constructor
    · rintro ⟨entry, hentry, v, reading, rfl, hunion⟩
      exact ⟨v, reading, hentry, hunion⟩
    · rintro ⟨v, reading, hentry, hunion⟩
      exact ⟨_, hentry, v, reading, rfl, hunion⟩
  rw [literals_eq_map, enumUnion, ← hreadings]
  cases entries with
  | nil => exact isOperand_any.isDivided (by simp [distinct])
  | cons entry rest =>
    have hne : distinct ((entry :: rest).map t.entryType) ≠ [] := List.cons_ne_nil _ _
    exact isDivided_unionOf hne (fun text => by rw [mem_distinct, List.mem_map]) hentries

/-- The step: a schema is written as a union exactly if it is one, given this of all nodes below. -/
theorem isDivided_schemaType
    (h : ∀ child ∈ s.children, IsDivided (t.nodeType child) (t.IsUnion child)) :
    IsDivided (t.schemaType s) (t.IsUnion (.schema s)) := by
  by_cases henumeration : s.form = .enumeration
  · rw [schemaType_eq, henumeration]
    cases henum : s.enum with
    | none =>
      refine isOperand_any.isDivided fun hunion => ?_
      cases hunion with
      | values _ hsome | value _ hsome => exact nomatch henum.symm.trans hsome
      | members hform | member hform => exact nomatch henumeration.symm.trans hform
    | some entries =>
      refine (isDivided_enumUnion fun v reading hmem => ?_).congr
        (isUnion_enumeration_iff henumeration henum).symm
      exact h reading (Schema.mem_children_of_enum henum hmem)
  by_cases hunion : s.form = .union
  · have hne : (s.oneOf ++ s.anyOf).map t.nodeType ≠ [] := by
      simpa using Schema.members_of_union hunion
    have hdivided := isDivided_unionOf hne (fun _ => List.mem_map) fun node hnode =>
      h node (Schema.mem_children_of_union hnode)
    rw [List.length_map] at hdivided
    rw [schemaType_eq, hunion]
    dsimp only
    rw [nodeTypes_eq_map, nodeTypes_eq_map, ← List.map_append]
    exact hdivided.congr (isUnion_union_iff hunion).symm
  · have hbalanced : ∀ child ∈ s.children, Balanced (t.nodeType child).toList :=
      fun child hchild => (h child hchild).balanced
    refine (isOperand_schemaType henumeration hunion hbalanced).isDivided fun hdivided => ?_
    exact (form_of_isUnion hdivided).elim henumeration hunion

end Schemas

section Nodes

omit [Text.Transliteration] in
theorem isOperand_qualify {name : String} (hscope : t.scope.toList.all isInert = true)
    (hname : IsOperand name) : IsOperand (t.qualify name) := by
  rw [qualify]
  split
  · exact hname
  · have hdot : IsOperand "." := isOperand_of_inert (by decide)
    exact ((isOperand_of_inert hscope).append hdot).append hname

theorem isOperand_typeName (raw : String) : IsOperand (Naming.typeName raw) := by
  refine isOperand_of_inert (List.all_eq_true.2 fun c hc => ?_)
  have hword : Naming.isWord c = true := Naming.isWord_typeName raw c hc
  exact isInert_of_isIdentifierChar (Naming.isIdentifierChar_of_isWord hword)

omit [Text.Transliteration] in
theorem settle_plain (hplain : t.override = Overrides.none.typeExpression)
    (node : Option SchemaNode) (usual : String) : t.settle node usual = usual := by
  rw [settle, hplain]
  rfl

theorem isDivided_nodeType (hplain : t.override = Overrides.none.typeExpression)
    (hscope : t.scope.toList.all isInert = true) {node : SchemaNode} (h : node.LiteralFree) :
    IsDivided (t.nodeType node) (t.IsUnion node) := by
  induction h with
  | reference path =>
    rw [nodeType, settle_plain hplain, Naming.referenceTypeName]
    exact (isOperand_qualify hscope (isOperand_typeName _)).isDivided nofun
  | other v =>
    rw [nodeType, settle_plain hplain]
    exact isOperand_any.isDivided nofun
  | schema _ ih =>
    rw [nodeType_schema hplain]
    exact isDivided_schemaType ih

/-- The items of an array are put in parentheses exactly if they are a union. The namespace may be
any that has no quotes, brackets or operators in it. -/
theorem itemsType_single_iff (t : Typing) (hplain : t.override = Overrides.none.typeExpression)
    (hscope : t.scope.toList.all isInert = true) (item : SchemaNode) (h : item.LiteralFree) :
    (joins (t.nodeType item) = true ↔ t.IsUnion item) ∧
    (t.itemsType (.single item) = "(" ++ t.nodeType item ++ ")[]" ↔ t.IsUnion item) ∧
    (t.itemsType (.single item) = t.nodeType item ++ "[]" ↔ ¬ t.IsUnion item) := by
  have hjoins : joins (t.nodeType item) = true ↔ t.IsUnion item :=
    joins_iff.trans (isDivided_nodeType hplain hscope h).divided_iff
  have hne : "(" ++ t.nodeType item ++ ")[]" ≠ t.nodeType item ++ "[]" := by
    intro heq
    have hlength := congrArg (fun text => text.toList.length) heq
    simp at hlength
  refine ⟨hjoins, ?_⟩
  rw [itemsType, arrayOf, ← hjoins]
  by_cases hunion : joins (t.nodeType item) = true
  · rw [if_pos hunion]
    exact ⟨iff_of_true rfl hunion, iff_of_false hne fun hnot => hnot hunion⟩
  · rw [if_neg hunion]
    exact ⟨iff_of_false hne.symm hunion, iff_of_true rfl hunion⟩

end Nodes

end Typing

end ApiClient

namespace ApiClient

/-- A union of one member, which is an enumeration of texts with quotes, bars and brackets. -/
def barredItem : SchemaNode :=
  .schema { Schema.empty with
    oneOf := [.schema { Schema.empty with
      enum := some [.scalar (.string "it's \" | ["), .scalar (.string "&")] }] }

theorem barredItem_literalFree : barredItem.LiteralFree :=
  .schema (List.forall_mem_singleton.2 (.schema nofun))

theorem barredItem_isUnion : (Typing.plain "API").IsUnion barredItem :=
  .member (by decide) rfl (.values (by decide) rfl (by decide))

theorem barredItem_array :
    (Typing.plain "API").override = Overrides.none.typeExpression ∧
    (Typing.plain "API").scope.toList.all Typing.isInert = true ∧
    barredItem.LiteralFree ∧ (Typing.plain "API").IsUnion barredItem ∧
    Typing.joins ((Typing.plain "API").nodeType barredItem) = true ∧
    (Typing.plain "API").itemsType (.single barredItem) =
      "(" ++ (Typing.plain "API").nodeType barredItem ++ ")[]" := by
  have hscope : (Typing.plain "API").scope.toList.all Typing.isInert = true := by decide
  obtain ⟨hjoins, henclosed, -⟩ := Typing.itemsType_single_iff (Typing.plain "API") rfl hscope
    barredItem barredItem_literalFree
  exact ⟨rfl, hscope, barredItem_literalFree, barredItem_isUnion, hjoins.2 barredItem_isUnion,
    henclosed.2 barredItem_isUnion⟩

end ApiClient
