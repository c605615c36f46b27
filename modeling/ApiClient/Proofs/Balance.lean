import ApiClient.Text.Quoted
import ApiClient.Typing.Brackets
import Mathlib.Data.List.Basic

namespace ApiClient

namespace Text

/-- What may stand between quotes: the quote and the backslash only behind a backslash. -/
inductive Quotable (quote : Char) : List Char → Prop
  | nil : Quotable quote []
  | plain {c : Char} {cs : List Char} : c ≠ quote → c ≠ '\\' → Quotable quote cs →
      Quotable quote (c :: cs)
  | escaped {c : Char} {cs : List Char} : Quotable quote cs → Quotable quote ('\\' :: c :: cs)

theorem quotable_escape (quote : Char) (cs : List Char) : Quotable quote (escape quote cs) := by
  induction cs with
  | nil => exact .nil
  | cons c rest ih =>
    rw [escape]
    split
    · exact .escaped ih
    · next hplain =>
      rw [not_or] at hplain
      exact .plain hplain.2 hplain.1 ih

end Text

namespace Typing

def isQuote (c : Char) : Bool :=
  c == '"' || c == '\''

def brackets : List (Char × Char) :=
  [('(', ')'), ('[', ']'), ('{', '}'), ('<', '>')]

def isPlain (c : Char) : Bool :=
  !(isQuote c || isOpener c || isCloser c)

/-- A text that closes its quotes and brackets, each bracket by its own counterpart. -/
inductive Balanced : List Char → Prop
  | nil : Balanced []
  | plain {c : Char} {rest : List Char} : isPlain c = true → Balanced rest → Balanced (c :: rest)
  | quoted {quote : Char} {inside rest : List Char} : isQuote quote = true →
      Text.Quotable quote inside → Balanced rest → Balanced (quote :: (inside ++ quote :: rest))
  | nested {opener closer : Char} {inside rest : List Char} : (opener, closer) ∈ brackets →
      Balanced inside → Balanced rest → Balanced (opener :: (inside ++ closer :: rest))

theorem Balanced.append {cs ds : List Char} (h : Balanced cs) (hds : Balanced ds) :
    Balanced (cs ++ ds) := by
  induction h with
  | nil => exact hds
  | plain hc _ ih => exact .plain hc ih
  | quoted hquote hinside _ ih =>
    rw [List.cons_append, List.append_assoc]
    exact .quoted hquote hinside ih
  | nested hpair hinside _ _ ih =>
    rw [List.cons_append, List.append_assoc]
    exact .nested hpair hinside ih

def operatorsFrom (s : Scan) : List Char → List Char
  | [] => []
  | c :: rest =>
    if s.isJoint c then c :: operatorsFrom (s.step c) rest else operatorsFrom (s.step c) rest

def operators (text : String) : List Char :=
  operatorsFrom .start text.toList

theorem joinsFrom_eq (s : Scan) (cs : List Char) :
    joinsFrom s cs = !(operatorsFrom s cs).isEmpty := by
  induction cs generalizing s with
  | nil => rfl
  | cons c rest ih =>
    rw [joinsFrom, operatorsFrom, ih]
    cases s.isJoint c <;> rfl

theorem joins_iff {text : String} : joins text = true ↔ operators text ≠ [] := by
  rw [joins, joinsFrom_eq, operators]
  simp

theorem operatorsFrom_append (s : Scan) (cs ds : List Char) : operatorsFrom s (cs ++ ds) =
    operatorsFrom s cs ++ operatorsFrom (cs.foldl Scan.step s) ds := by
  induction cs generalizing s with
  | nil => rfl
  | cons c rest ih =>
    rw [List.cons_append, operatorsFrom, operatorsFrom, ih, List.foldl_cons]
    split <;> rfl

section Scanning

variable {cs : List Char} {quote : Char}

theorem operatorsFrom_quoted (depth : Int) (escaped : Bool) (c : Char) (rest : List Char) :
    operatorsFrom ⟨depth, some quote, escaped⟩ (c :: rest) =
      operatorsFrom (Scan.step ⟨depth, some quote, escaped⟩ c) rest := by
  rw [operatorsFrom, Scan.isJoint]
  rfl

theorem scan_quotable (h : Text.Quotable quote cs) (depth : Int) :
    cs.foldl Scan.step ⟨depth, some quote, false⟩ = ⟨depth, some quote, false⟩ ∧
      operatorsFrom ⟨depth, some quote, false⟩ cs = [] := by
  induction h with
  | nil => exact ⟨rfl, rfl⟩
  | @plain c cs hquote hslash _ ih =>
    have hstep : Scan.step ⟨depth, some quote, false⟩ c = ⟨depth, some quote, false⟩ := by
      simp [Scan.step, hquote, hslash]
    rwa [List.foldl_cons, operatorsFrom_quoted, hstep]
  | @escaped c cs _ ih =>
    have hslash : Scan.step ⟨depth, some quote, false⟩ '\\' = ⟨depth, some quote, true⟩ := by
      simp [Scan.step]
    have hstep : Scan.step ⟨depth, some quote, true⟩ c = ⟨depth, some quote, false⟩ := rfl
    rwa [List.foldl_cons, List.foldl_cons, operatorsFrom_quoted, hslash, operatorsFrom_quoted,
      hstep]

theorem step_plain {c : Char} (hc : isPlain c = true) (depth : Int) :
    Scan.step ⟨depth, none, false⟩ c = ⟨depth, none, false⟩ := by
  simp only [isPlain, Bool.not_eq_true', Bool.or_eq_false_iff, isQuote, beq_eq_false_iff_ne] at hc
  simp [Scan.step, hc]

theorem step_quote (hquote : isQuote quote = true) (depth : Int) :
    Scan.step ⟨depth, none, false⟩ quote = ⟨depth, some quote, false⟩ ∧
      Scan.step ⟨depth, some quote, false⟩ quote = ⟨depth, none, false⟩ := by
  obtain hquote | hquote := Bool.or_eq_true_iff.1 hquote <;> rw [beq_iff_eq] at hquote <;>
    subst hquote <;> exact ⟨rfl, rfl⟩

theorem step_bracket {opener closer : Char} (hpair : (opener, closer) ∈ brackets) (depth : Int) :
    Scan.step ⟨depth, none, false⟩ opener = ⟨depth + 1, none, false⟩ ∧
      Scan.step ⟨depth, none, false⟩ closer = ⟨depth - 1, none, false⟩ := by
  simp only [brackets, List.mem_cons, List.not_mem_nil, or_false, Prod.mk.injEq] at hpair
  obtain ⟨rfl, rfl⟩ | ⟨rfl, rfl⟩ | ⟨rfl, rfl⟩ | ⟨rfl, rfl⟩ := hpair <;> exact ⟨rfl, rfl⟩

theorem balanced_of_plain (h : cs.all isPlain = true) : Balanced cs := by
  induction cs with
  | nil => exact .nil
  | cons c rest ih =>
    rw [List.all_cons, Bool.and_eq_true] at h
    exact .plain h.1 (ih h.2)

theorem operatorsFrom_plain (h : cs.all isPlain = true) :
    operatorsFrom .start cs = cs.filter fun c => c == '|' || c == '&' := by
  induction cs with
  | nil => rfl
  | cons c rest ih =>
    rw [List.all_cons, Bool.and_eq_true] at h
    rw [operatorsFrom, Scan.start, step_plain h.1, List.filter_cons]
    exact if_congr Iff.rfl (congrArg _ (ih h.2)) (ih h.2)

theorem Balanced.scan (h : Balanced cs) (depth : Int) :
    cs.foldl Scan.step ⟨depth, none, false⟩ = ⟨depth, none, false⟩ := by
  induction h generalizing depth with
  | nil => rfl
  | plain hc _ ih => rw [List.foldl_cons, step_plain hc, ih]
  | quoted hquote hinside _ ih =>
    obtain ⟨hopen, hclose⟩ := step_quote hquote depth
    rw [List.foldl_cons, List.foldl_append, hopen, (scan_quotable hinside depth).1, List.foldl_cons,
      hclose, ih]
  | nested hpair _ _ ihinside ih =>
    rw [List.foldl_cons, List.foldl_append, (step_bracket hpair depth).1, ihinside, List.foldl_cons,
      (step_bracket hpair (depth + 1)).2, Int.add_sub_cancel, ih]

theorem Balanced.operatorsFrom_inside (h : Balanced cs) {depth : Int} (hdepth : 0 < depth) :
    operatorsFrom ⟨depth, none, false⟩ cs = [] := by
  have hnone : ∀ {depth : Int} (c : Char) (rest : List Char), 0 < depth →
      operatorsFrom ⟨depth, none, false⟩ (c :: rest) =
        operatorsFrom (Scan.step ⟨depth, none, false⟩ c) rest := by
    intro depth c rest hdepth
    have hne : (depth == 0) = false := by simpa using Int.ne_of_gt hdepth
    simp [operatorsFrom, Scan.isJoint, hne]
  induction h generalizing depth with
  | nil => rfl
  | plain hc _ ih => rw [hnone _ _ hdepth, step_plain hc, ih hdepth]
  | quoted hquote hinside _ ih =>
    obtain ⟨hopen, hclose⟩ := step_quote hquote depth
    obtain ⟨hstays, hoperators⟩ := scan_quotable hinside depth
    rw [hnone _ _ hdepth, hopen, operatorsFrom_append, hoperators, hstays, List.nil_append,
      operatorsFrom_quoted, hclose, ih hdepth]
  | nested hpair hinside _ ihinside ih =>
    have hdeeper : 0 < depth + 1 := by omega
    rw [hnone _ _ hdepth, (step_bracket hpair depth).1, operatorsFrom_append, ihinside hdeeper,
      hinside.scan, List.nil_append, hnone _ _ hdeeper, (step_bracket hpair (depth + 1)).2,
      Int.add_sub_cancel, ih hdepth]

end Scanning

theorem balanced_append {a b : String} (ha : Balanced a.toList) (hb : Balanced b.toList) :
    Balanced (a ++ b).toList := by
  rw [String.toList_append]
  exact ha.append hb

theorem operators_append {a : String} (h : Balanced a.toList) (b : String) :
    operators (a ++ b) = operators a ++ operators b := by
  rw [operators, String.toList_append, operatorsFrom_append, Scan.start, h.scan]
  rfl

/-- A balanced text that no operator divides. -/
structure IsOperand (text : String) : Prop where
  balanced : Balanced text.toList
  undivided : operators text = []

def isInert (c : Char) : Bool :=
  isPlain c && !(c == '|' || c == '&')

section Operands

variable {a b text : String}

theorem IsOperand.append (ha : IsOperand a) (hb : IsOperand b) : IsOperand (a ++ b) where
  balanced := balanced_append ha.balanced hb.balanced
  undivided := by rw [operators_append ha.balanced, ha.undivided, hb.undivided, List.nil_append]

theorem isOperand_of_inert (h : text.toList.all isInert = true) : IsOperand text := by
  have hinert : ∀ c ∈ text.toList, isPlain c = true ∧ (c == '|' || c == '&') = false := by
    intro c hc
    have hchar := List.all_eq_true.1 h c hc
    rwa [isInert, Bool.and_eq_true, Bool.not_eq_true'] at hchar
  have hplain : text.toList.all isPlain = true :=
    List.all_eq_true.2 fun c hc => (hinert c hc).1
  refine ⟨balanced_of_plain hplain, ?_⟩
  rw [operators, operatorsFrom_plain hplain, List.filter_eq_nil_iff]
  intro c hc hjoint
  exact Bool.false_ne_true ((hinert c hc).2.symm.trans hjoint)

theorem isOperand_quoted {quote : Char} (hquote : isQuote quote = true) (s : String) :
    IsOperand (Text.quoted quote s) := by
  obtain ⟨hopen, hclose⟩ := step_quote hquote 0
  have hinside := Text.quotable_escape quote s.toList
  obtain ⟨hstays, hnone⟩ := scan_quotable hinside 0
  have htext : (Text.quoted quote s).toList = quote :: (Text.escape quote s.toList ++ [quote]) := by
    rw [Text.quoted, String.toList_ofList, List.cons_append]
  have hjoint : Scan.isJoint .start quote = false := by
    obtain hquote | hquote := Bool.or_eq_true_iff.1 hquote <;> rw [beq_iff_eq] at hquote <;>
      subst hquote <;> rfl
  constructor
  · rw [htext]
    exact .quoted hquote hinside .nil
  · rw [operators, htext, operatorsFrom, hjoint, if_neg Bool.false_ne_true, Scan.start, hopen,
      operatorsFrom_append, hnone, hstays, operatorsFrom_quoted, hclose]
    rfl

theorem isOperand_enclosed {opener closer : Char} (hpair : (opener, closer) ∈ brackets)
    (h : Balanced text.toList) :
    IsOperand (String.singleton opener ++ text ++ String.singleton closer) := by
  have htext : (String.singleton opener ++ text ++ String.singleton closer).toList =
      opener :: (text.toList ++ [closer]) := by
    simp
  have hjoint : Scan.isJoint .start opener = false := by
    have hall : ∀ pair ∈ brackets, Scan.isJoint .start pair.1 = false := by decide
    exact hall _ hpair
  have hcloser : operatorsFrom ⟨1, none, false⟩ [closer] = [] := by
    simp [operatorsFrom, Scan.isJoint]
  constructor
  · rw [htext]
    exact .nested hpair h .nil
  · rw [operators, htext, operatorsFrom, hjoint, if_neg Bool.false_ne_true, Scan.start,
      (step_bracket hpair 0).1, operatorsFrom_append, Int.zero_add,
      h.operatorsFrom_inside Int.one_pos, h.scan, hcloser]
    rfl

end Operands

section Lists

variable {mark : String} {texts : List String}

theorem balanced_join (h : ∀ text ∈ texts, Balanced text.toList) :
    Balanced (String.join texts).toList := by
  induction texts with
  | nil => exact .nil
  | cons text rest ih =>
    obtain ⟨htext, hrest⟩ := List.forall_mem_cons.1 h
    rw [String.join_cons]
    exact balanced_append htext (ih hrest)

theorem balanced_intercalate (hmark : Balanced mark.toList)
    (h : ∀ text ∈ texts, Balanced text.toList) : Balanced (mark.intercalate texts).toList := by
  induction texts with
  | nil => exact .nil
  | cons text rest ih =>
    obtain ⟨htext, hrest⟩ := List.forall_mem_cons.1 h
    cases rest with
    | nil => simpa using htext
    | cons next rest =>
      rw [String.intercalate_cons_cons]
      exact balanced_append (balanced_append htext hmark) (ih hrest)

/-- Joined texts have their own operators and those of the mark in between. -/
theorem operators_intercalate (hmark : Balanced mark.toList)
    (h : ∀ text ∈ texts, Balanced text.toList) : operators (mark.intercalate texts) =
      List.intercalate (operators mark) (texts.map operators) := by
  induction texts with
  | nil => rfl
  | cons text rest ih =>
    obtain ⟨htext, hrest⟩ := List.forall_mem_cons.1 h
    cases rest with
    | nil => simp
    | cons next rest =>
      rw [String.intercalate_cons_cons, String.append_assoc, operators_append htext,
        operators_append hmark, ih hrest]
      simp only [List.map_cons, List.intercalate_cons_cons, List.append_assoc]

theorem mem_operators_intercalate {op : Char} (hmark : Balanced mark.toList)
    (hop : op ∉ operators mark) (h : ∀ text ∈ texts, Balanced text.toList) :
    op ∈ operators (mark.intercalate texts) ↔ ∃ text ∈ texts, op ∈ operators text := by
  induction texts with
  | nil => simp [operators, operatorsFrom]
  | cons text rest ih =>
    obtain ⟨htext, hrest⟩ := List.forall_mem_cons.1 h
    cases rest with
    | nil => simp
    | cons next rest =>
      rw [String.intercalate_cons_cons, String.append_assoc, operators_append htext,
        operators_append hmark, List.mem_append, List.mem_append, ih hrest, or_iff_right hop]
      simp only [List.exists_mem_cons_iff]

end Lists

end Typing

end ApiClient
