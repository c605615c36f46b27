import ApiClient.Proofs.FunctionNames
import ApiClient.Proofs.Identifiers

namespace ApiClient

namespace NameCounts

theorem isIdentifier_numbered {name : String} (h : Naming.IsIdentifier name.toList) (i : Nat) :
    Naming.IsIdentifier (numbered name i).toList := by
  rw [numbered]
  split
  · exact h
  · have hmark : Naming.IsIdentifier "_".toList := by decide
    rw [String.toList_append, String.toList_append]
    apply (h.append hmark.chars).append
    intro c hc
    left
    simp [Char.isAlphanum, Text.isDigit_of_mem_toString hc]

theorem isReserved_numbered (name : String) {i : Nat} (hi : i ≠ 0) :
    Naming.isReserved (numbered name i) = false := by
  rw [numbered, if_neg hi]
  exact Naming.isReserved_of_mem (c := '_') (by simp) (by decide)

theorem forall_uses_free_iff (names : List String) :
    (∀ use ∈ uses [] names, Naming.isReserved (numbered use.1 use.2) = false) ↔
      ∀ name ∈ names, Naming.isReserved name = false := by
  constructor
  · intro h name hname
    exact h (name, 0) (mem_uses_nil.2 (List.count_pos_iff.2 hname))
  · rintro h ⟨name, i⟩ hmem
    by_cases hi : i = 0
    · subst hi
      exact h name (List.count_pos_iff.1 (mem_uses_nil.1 hmem))
    · exact isReserved_numbered name hi

end NameCounts

namespace Run

theorem isIdentifier_foldName {name : String} (h : Naming.IsIdentifier name.toList)
    (isCamelCase : Bool) : Naming.IsIdentifier (foldName isCamelCase name).toList := by
  rw [foldName]
  split
  · exact h
  · next hfold =>
    rw [Bool.or_eq_true, Bool.or_eq_true, not_or, not_or, List.isEmpty_iff] at hfold
    have hchars := Text.isAlphanum_lowerCamel fun c hc => (h.chars c hc).toNat_lt
    rw [String.toList_ofList]
    exact ⟨hfold.1.2, fun c hc => .inl (hchars c hc), Bool.eq_false_iff.2 hfold.2⟩

/-- A name that is no reserved word becomes one exactly when its camel case is one. -/
theorem isReserved_foldName {name : String} (h : Naming.isReserved name = false)
    (isCamelCase : Bool) : Naming.isReserved (foldName isCamelCase name) = true ↔
      isCamelCase = true ∧
        Naming.isReserved (String.ofList (Text.lowerCamel name.toList)) = true := by
  rw [foldName]
  split
  · next hkeep =>
    rw [h]
    refine ⟨fun hf => absurd hf Bool.false_ne_true, fun ⟨hcamel, hreserved⟩ => ?_⟩
    have hid := (Naming.isReserved_spec hreserved).1
    rw [String.toList_ofList] at hid
    simp [hcamel, hid.ne_nil, hid.head] at hkeep
  · next hfold =>
    have hcamel : isCamelCase = true := by
      cases isCamelCase with
      | true => rfl
      | false => exact absurd rfl hfold
    simp [hcamel]

variable [Text.Transliteration]

def ownName (e : Endpoint) : String :=
  (e.operation.operationId.bind fun id => Naming.functionName? id e.method).getD
    (Naming.defaultFunctionName e.method e.path)

theorem isDeclarable_ownName (e : Endpoint) : Naming.IsDeclarable (ownName e) := by
  rw [ownName]
  cases hid : e.operation.operationId.bind fun id => Naming.functionName? id e.method with
  | none => exact Naming.isDeclarable_defaultFunctionName _ _
  | some name =>
    obtain ⟨id, -, hname⟩ := Option.bind_eq_some_iff.1 hid
    exact Naming.isDeclarable_functionName? hname

theorem functionName_eq_foldName {r : Run} (h : r.overrides = .none) (e : Endpoint) :
    r.functionName e = foldName r.config.isCamelCase (ownName e) := by
  rw [functionName, h]
  rfl

/-- Every function name is an identifier. Reserved words are avoided before the case of a name is
folded, so there are none exactly when no name becomes one by folding. -/
theorem functionNames_declarable_iff (r : Run) (c : Client) (hnone : r.overrides = .none)
    (h : r.client = .ok c) (u : ServiceUnit) (hu : u ∈ c.services) :
    (∀ call ∈ u.operations, Naming.IsIdentifier call.functionName.toList) ∧
      ((∀ call ∈ u.operations, Naming.isReserved call.functionName = false) ↔
        (r.config.isCamelCase = true →
          ∀ e ∈ r.document.spec.members r.config r.overrides u.tag, isSkipped e = false →
            Naming.isReserved (String.ofList (Text.lowerCamel (ownName e).toList)) = false)) := by
  constructor
  · rw [forall_functionNames h hu fun name => Naming.IsIdentifier name.toList]
    rintro ⟨name, i⟩ hmem
    apply NameCounts.isIdentifier_numbered
    have hpos : 0 < (r.plainNames u.tag).count name :=
      Nat.zero_lt_of_lt (NameCounts.mem_uses_nil.1 hmem)
    obtain ⟨e, -, -, rfl⟩ := mem_plainNames.1 (List.count_pos_iff.1 hpos)
    rw [functionName_eq_foldName hnone]
    exact isIdentifier_foldName (isDeclarable_ownName e).identifier _
  · rw [forall_functionNames h hu fun name => Naming.isReserved name = false,
      NameCounts.forall_uses_free_iff]
    have hfold : ∀ e, Naming.isReserved (r.functionName e) = false ↔
        (r.config.isCamelCase = true →
          Naming.isReserved (String.ofList (Text.lowerCamel (ownName e).toList)) = false) := by
      intro e
      have hiff := isReserved_foldName (isDeclarable_ownName e).free r.config.isCamelCase
      rw [functionName_eq_foldName hnone, ← Bool.not_eq_true, hiff, not_and, Bool.not_eq_true]
    constructor
    · intro hfree hcamel e he hs
      exact (hfold e).1 (hfree _ (mem_plainNames.2 ⟨e, he, hs, rfl⟩)) hcamel
    · intro hfree name hname
      obtain ⟨e, he, hs, rfl⟩ := mem_plainNames.1 hname
      exact (hfold e).2 fun hcamel => hfree hcamel e he hs

end Run

end ApiClient

namespace ApiClient.Run

def reservedRun : Run :=
  .ofTree .default (usersTree "delete") (by decide +kernel)

theorem reservedRun_declarable : ∃ c u, reservedRun.client = .ok c ∧ u ∈ c.services ∧
    u.operations.map Call.functionName = ["listUsers", "listUsers_2", "deleteUsingGet"] ∧
    ∀ call ∈ u.operations, Naming.IsDeclarable call.functionName := by
  obtain ⟨c, hc, hunits⟩ : ∃ c, reservedRun.client = .ok c ∧
      c.services.map (fun u => (u.tag, u.operations.map Call.functionName)) =
        [("user", ["listUsers", "listUsers_2", "deleteUsingGet"])] :=
    exists_ok_of_map (by decide +kernel)
  obtain ⟨u, hu, heq⟩ := exists_unit_of_map hunits
  obtain ⟨htag, hnames⟩ := Prod.mk.inj heq
  obtain ⟨hidentifiers, hfree⟩ := functionNames_declarable_iff reservedRun c rfl hc u hu
  rw [htag] at hfree
  have hall := hfree.2 (by decide +kernel)
  exact ⟨c, u, hc, hu, hnames, fun call hcall => ⟨hidentifiers call hcall, hall call hcall⟩⟩

/-- A name that is no reserved word, but for its case. -/
def foldedRun : Run :=
  .ofTree .default (usersTree "Delete") (by decide +kernel)

theorem not_functionNames_declarable : ¬ ∀ (r : Run) (c : Client), r.overrides = .none →
    r.client = .ok c → ∀ u ∈ c.services, ∀ call ∈ u.operations,
      Naming.IsDeclarable call.functionName := by
  intro declarable
  obtain ⟨c, hc, hnames⟩ : ∃ c, foldedRun.client = .ok c ∧
      (c.services.flatMap fun u => u.operations.map Call.functionName) =
        ["listUsers", "listUsers_2", "delete"] :=
    exists_ok_of_map (by decide +kernel)
  obtain ⟨u, hu, call, hcall, hname⟩ := exists_call_of_mem (b := "delete")
    (by rw [hnames]; decide)
  have hfree := (declarable foldedRun c rfl hc u hu call hcall).free
  rw [hname] at hfree
  exact absurd hfree (by decide)

end ApiClient.Run
