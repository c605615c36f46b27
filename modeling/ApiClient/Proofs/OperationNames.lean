import ApiClient.Proofs.TypeNames

namespace ApiClient.Naming

open Text

def isOperationChar (c : Char) : Bool :=
  isWord c || c == '$' || isIdeograph c

section Cleaning

variable {c : Char} {held cs : List Char}

theorem isBlank_of_isOperationChar (h : isOperationChar c = true) : isBlank c = false := by
  rw [isOperationChar, Bool.or_right_comm, Bool.or_eq_true, beq_iff_eq] at h
  obtain h | rfl := h
  · exact isBlank_eq_false h
  · decide

theorem mem_dropWhile_of_not {p : Char → Bool} (h : p c = false) :
    c ∈ cs.dropWhile p ↔ c ∈ cs := by
  constructor
  · exact fun hc => (List.dropWhile_sublist p).subset hc
  · intro hc
    rw [← List.takeWhile_append_dropWhile (p := p) (l := cs), List.mem_append] at hc
    refine hc.resolve_left fun hstart => ?_
    rw [List.mem_takeWhile_imp hstart] at h
    cases h

theorem mem_trim (h : isBlank c = false) : c ∈ trim cs ↔ c ∈ cs := by
  rw [trim, trimEnd, trimStart, List.mem_reverse, mem_dropWhile_of_not h, List.mem_reverse,
    mem_dropWhile_of_not h]

/-- A run of separators is only dropped in front of a letter or digit, which stays. -/
theorem exists_mem_joinRuns : (∃ c ∈ joinRuns held cs, isOperationChar c = true) ↔
    ∃ c ∈ held ++ cs, isOperationChar c = true := by
  fun_induction joinRuns held cs with
  | case1 held => simp
  | case2 held c rest hseparator ih =>
    rw [ih]
    refine exists_congr fun d => and_congr_left fun _ => ?_
    simp [or_left_comm]
  | case3 held c rest hseparator hjoin ih =>
    rw [Bool.and_eq_true] at hjoin
    have hword : isWord c = true := by simp [isWord, hjoin.2]
    refine iff_of_true ⟨c.toUpper, List.mem_cons_self, ?_⟩ ⟨c, by simp, ?_⟩
    · simp [isOperationChar, (isWord_changeCase hword).1]
    · simp [isOperationChar, hword]
  | case4 held c rest hseparator hjoin ih =>
    simp only [List.mem_append, List.mem_cons, or_and_right, exists_or, List.mem_reverse,
      List.nil_append] at ih ⊢
    rw [ih]

theorem cleanOperationId_eq_nil_iff {id : String} :
    cleanOperationId id = [] ↔ ∀ c ∈ id.toList, isOperationChar c = false := by
  have hkept : (∃ c ∈ joinRuns [] (trim id.toList), isOperationChar c = true) ↔
      ∃ c ∈ id.toList, isOperationChar c = true := by
    rw [exists_mem_joinRuns, List.nil_append]
    exact exists_congr fun c => and_congr_left fun h => mem_trim (isBlank_of_isOperationChar h)
  change (joinRuns [] (trim id.toList)).filter isOperationChar = [] ↔ _
  rw [List.filter_eq_nil_iff]
  simpa using not_congr hkept

end Cleaning

section Names

variable [Transliteration]

theorem latinOperationId_eq_nil_iff (hspells : SpellsIdeographs) {id : String} :
    latinOperationId id = [] ↔ cleanOperationId id = [] := by
  rw [latinOperationId]
  split
  · next hwide =>
    have hname : cleanOperationId id ≠ [] := by
      intro hnil
      rw [hnil] at hwide
      cases hwide
    have hspelt := spelt_ne_nil hspells hname
    rw [spelt, if_pos hwide] at hspelt
    obtain ⟨c, rest, hcons⟩ := List.exists_cons_of_ne_nil hspelt
    have hc : c ∈ transliterate (cleanOperationId id) := hcons ▸ List.mem_cons_self
    have hword : isWord c = true := isWord_onlyWords _ c hc
    rw [hcons, lowerFirst, toLowercase_of_ascii (isIdentifierChar_of_isWord hword).toNat_lt]
    simp [hname]
  · rfl

theorem functionName?_eq_none_iff (hspells : SpellsIdeographs) {id : String}
    {method : HttpMethod} : functionName? id method = none ↔
      ∀ c ∈ id.toList, isOperationChar c = false := by
  rw [← cleanOperationId_eq_nil_iff, ← latinOperationId_eq_nil_iff hspells, functionName?]
  simp

/-- The names of operation ids, where they have one, and of paths can be declared. -/
theorem operationNames_declarable :
    (∀ (id : String) (method : HttpMethod), functionName? id method = none ∨
      ∃ name, functionName? id method = some name ∧ IsDeclarable name) ∧
    ∀ (method : HttpMethod) (path : String), IsDeclarable (defaultFunctionName method path) := by
  refine ⟨fun id method => ?_, isDeclarable_defaultFunctionName⟩
  cases hname : functionName? id method with
  | none => exact .inl rfl
  | some name => exact .inr ⟨name, rfl, isDeclarable_functionName? hname⟩

end Names

end ApiClient.Naming
