import ApiClient.Naming.FunctionName
import ApiClient.Proofs.Letters

namespace ApiClient.Naming

open Text

def IsIdentifierChar (c : Char) : Prop :=
  c.isAlphanum = true ∨ c = '_' ∨ c = '$'

instance (c : Char) : Decidable (IsIdentifierChar c) :=
  inferInstanceAs (Decidable (_ ∨ _ ∨ _))

structure IsIdentifier (cs : List Char) : Prop where
  ne_nil : cs ≠ []
  chars : ∀ c ∈ cs, IsIdentifierChar c
  head : startsWithDigit cs = false

instance (cs : List Char) : Decidable (IsIdentifier cs) :=
  decidable_of_iff (cs ≠ [] ∧ cs.all (fun c => decide (IsIdentifierChar c)) = true ∧
      startsWithDigit cs = false)
    ⟨fun ⟨hne, hchars, hhead⟩ => ⟨hne, by simpa using hchars, hhead⟩,
      fun h => ⟨h.ne_nil, by simpa using h.chars, h.head⟩⟩

/-- A name that a function can be declared with. -/
structure IsDeclarable (name : String) : Prop where
  identifier : IsIdentifier name.toList
  free : isReserved name = false

theorem IsIdentifierChar.toNat_lt {c : Char} (h : IsIdentifierChar c) : c.toNat < 128 := by
  obtain h | rfl | rfl := h
  · exact toNat_lt_of_isAlphanum h
  · decide
  · decide

theorem isIdentifierChar_of_isWord {c : Char} (h : isWord c = true) : IsIdentifierChar c := by
  rw [isWord, Bool.or_eq_true, beq_iff_eq] at h
  obtain h | h := h
  · exact .inl h
  · exact .inr (.inl h)

theorem isWord_changeCase {c : Char} (h : isWord c = true) :
    isWord c.toUpper = true ∧ isWord c.toLower = true :=
  forall_ascii (P := fun c => isWord c = true → isWord c.toUpper = true ∧ isWord c.toLower = true)
    (by decide +kernel) (isIdentifierChar_of_isWord h).toNat_lt h

theorem IsIdentifier.append {cs ds : List Char} (h : IsIdentifier cs)
    (hds : ∀ c ∈ ds, IsIdentifierChar c) : IsIdentifier (cs ++ ds) where
  ne_nil := List.append_ne_nil_of_left_ne_nil h.ne_nil ds
  chars := by
    intro c hc
    obtain hc | hc := List.mem_append.1 hc
    · exact h.chars c hc
    · exact hds c hc
  head := by
    cases cs with
    | nil => exact absurd rfl h.ne_nil
    | cons c cs => exact h.head

theorem isIdentifier_mark {cs : List Char} (hne : cs ≠ []) (h : ∀ c ∈ cs, IsIdentifierChar c) :
    IsIdentifier (if startsWithDigit cs then '_' :: cs else cs) := by
  cases hd : startsWithDigit cs with
  | true =>
    rw [if_pos rfl]
    have hmark : IsIdentifier ['_'] := by decide
    exact hmark.append h
  | false =>
    rw [if_neg Bool.false_ne_true]
    exact ⟨hne, h, hd⟩

section Reserved

theorem isReserved_spec {name : String} (h : isReserved name = true) :
    IsIdentifier name.toList ∧ ∀ c ∈ name.toList, c.isLower = true := by
  have hall : ∀ word ∈ reservedWords, IsIdentifier word.toList ∧
      word.toList.all Char.isLower = true := by
    decide +kernel
  obtain ⟨hid, hlower⟩ := hall name (List.contains_iff_mem.1 h)
  exact ⟨hid, List.all_eq_true.1 hlower⟩

/-- Reserved words are written in small letters, so another character makes a name free. -/
theorem isReserved_of_mem {name : String} {c : Char} (hc : c ∈ name.toList)
    (hlower : c.isLower = false) : isReserved name = false := by
  apply Bool.eq_false_iff.2
  intro h
  rw [(isReserved_spec h).2 c hc] at hlower
  cases hlower

theorem isDeclarable_avoidReserved {name : String} (h : IsIdentifier name.toList)
    (method : HttpMethod) : IsDeclarable (avoidReserved name method) := by
  rw [avoidReserved]
  split
  · constructor
    · have husing : IsIdentifier "Using".toList := by decide
      have hmethod : IsIdentifier method.upperText.toList := by
        cases method <;> decide +kernel
      rw [String.toList_append, String.toList_append]
      exact (h.append husing.chars).append hmethod.chars
    · exact isReserved_of_mem (c := 'U') (by simp) (by decide)
  · next hfree => exact ⟨h, Bool.eq_false_iff.2 hfree⟩

end Reserved

section Words

theorem isWord_onlyWords (cs : List Char) : ∀ c ∈ onlyWords cs, isWord c = true :=
  fun _ hc => (List.mem_filter.1 hc).2

/-- A character of a name that still has its ideographs. -/
def IsKept (c : Char) : Prop :=
  isWord c = true ∨ isIdeograph c = true

theorem isKept_normalize (cs : List Char) : ∀ c ∈ normalize cs, IsKept c := by
  intro c hc
  have hkept := (List.mem_filter.1 hc).2
  rwa [Bool.or_eq_true] at hkept

theorem isWord_keyToken {parts : List (List Char)} {token : List Char}
    (h : keyToken? parts = some token) : ∀ c ∈ token, isWord c = true := by
  obtain ⟨found, -, hfound⟩ := Option.bind_eq_some_iff.1 h
  dsimp only at hfound
  split at hfound
  · cases hfound
  · cases hfound
    exact isWord_onlyWords _

theorem isKept_plainName (raw : List Char) : ∀ c ∈ plainName raw, IsKept c := by
  intro c hc
  rw [plainName] at hc
  split at hc
  · cases hc
  · next first parts _ =>
    dsimp only at hc
    split at hc
    · next token htoken =>
      split at hc
      · exact isKept_normalize _ c hc
      · obtain hc | hc := List.mem_append.1 hc
        · exact isKept_normalize _ c hc
        · left
          obtain rfl | hc := List.mem_cons.1 hc
          · decide
          · exact isWord_keyToken htoken c hc
    · exact isKept_normalize _ c hc

theorem isWord_of_isUnusable {name : List Char} (h : isUnusable name = true) :
    ∀ c ∈ name, isWord c = true := by
  rw [isUnusable, Bool.or_eq_true, Bool.or_eq_true, List.isEmpty_iff, beq_iff_eq] at h
  intro c hc
  obtain (rfl | rfl) | hdigits := h
  · cases hc
  · rw [List.mem_singleton.1 hc]
    decide
  · have hdigit := List.all_eq_true.1 hdigits c hc
    simp [isWord, Char.isAlphanum, hdigit]

theorem mem_intercalate {mark : List Char} {parts : List (List Char)} {c : Char}
    (h : c ∈ List.intercalate mark parts) : c ∈ mark ∨ ∃ part ∈ parts, c ∈ part := by
  induction parts with
  | nil => cases h
  | cons part rest ih =>
    cases rest with
    | nil =>
      rw [List.intercalate_singleton] at h
      exact .inr ⟨part, by simp, h⟩
    | cons next rest =>
      rw [List.intercalate_cons_cons, List.mem_append, List.mem_append] at h
      obtain (h | h) | h := h
      · exact .inr ⟨part, by simp, h⟩
      · exact .inl h
      · obtain hmark | ⟨part', hpart, hc⟩ := ih h
        · exact .inl hmark
        · exact .inr ⟨part', List.mem_cons_of_mem _ hpart, hc⟩

variable [Transliteration]

theorem isWord_identifier {name : List Char} (h : ∀ c ∈ name, IsKept c) :
    ∀ c ∈ identifier name, isWord c = true := by
  rw [identifier]
  split
  · next hunusable =>
    intro c hc
    obtain hc | hc := List.mem_append.1 hc
    · have hmark : fallbackMark.all isWord = true := by decide
      exact List.all_eq_true.1 hmark c hc
    · exact isWord_of_isUnusable hunusable c hc
  · dsimp only
    have hlatin : ∀ c ∈ (if name.any isIdeograph then transliterate name else name),
        isWord c = true := by
      intro c hc
      split at hc
      · exact isWord_onlyWords _ c hc
      · next hnone =>
        obtain hword | hwide := h c hc
        · exact hword
        · exact absurd (List.any_eq_true.2 ⟨c, hc, hwide⟩) hnone
    generalize (if name.any isIdeograph then transliterate name else name) = spelt at hlatin ⊢
    split
    · exact List.forall_mem_cons.2 ⟨by decide, hlatin⟩
    · exact hlatin

theorem isWord_sanitize (raw : List Char) : ∀ c ∈ sanitize raw, isWord c = true := by
  fun_induction sanitize raw with
  | case1 raw hparts => exact isWord_identifier (isKept_plainName raw)
  | case2 raw outer arguments hparts parts ih =>
    apply isWord_identifier
    intro c hc
    obtain hmark | ⟨part, hpart, hmem⟩ := mem_intercalate hc
    · rw [List.mem_singleton.1 hmark]
      left
      decide
    · obtain rfl | hpart := List.mem_cons.1 (List.mem_filter.1 hpart).1
      · obtain ⟨found, -, hfound⟩ := Option.map_eq_some_iff.1 hparts
        cases hfound
        exact isKept_normalize _ c hmem
      · obtain ⟨⟨a, ha⟩, -, rfl⟩ := List.mem_map.1 hpart
        exact .inl (ih a ha c hmem)

theorem isWord_typeName (raw : String) : ∀ c ∈ (typeName raw).toList, isWord c = true := by
  rw [typeName]
  split
  · next hreserved =>
    intro c hc
    rw [String.toList_append, List.mem_append] at hc
    obtain hc | hc := hc
    · have hmark : reservedMark.toList.all isWord = true := by decide
      exact List.all_eq_true.1 hmark c hc
    · have hlower := (isReserved_spec hreserved).2 c hc
      have halpha : c.isAlpha = true := by
        change (c.isUpper || c.isLower) = true
        rw [hlower, Bool.or_true]
      simp [isWord, Char.isAlphanum, halpha]
  · rw [String.toList_ofList]
    exact isWord_sanitize raw.toList

end Words

section FunctionNames

theorem isWord_upperFirst {cs : List Char} (h : ∀ c ∈ cs, isWord c = true) :
    ∀ c ∈ upperFirst cs, isWord c = true := by
  cases cs with
  | nil => exact h
  | cons c rest =>
    obtain ⟨hc, hrest⟩ := List.forall_mem_cons.1 h
    rw [upperFirst, toUppercase_of_ascii (isIdentifierChar_of_isWord hc).toNat_lt]
    exact List.forall_mem_cons.2 ⟨(isWord_changeCase hc).1, hrest⟩

theorem isWord_lowerFirst {cs : List Char} (h : ∀ c ∈ cs, isWord c = true) :
    ∀ c ∈ lowerFirst cs, isWord c = true := by
  cases cs with
  | nil => exact h
  | cons c rest =>
    obtain ⟨hc, hrest⟩ := List.forall_mem_cons.1 h
    rw [lowerFirst, toLowercase_of_ascii (isIdentifierChar_of_isWord hc).toNat_lt]
    exact List.forall_mem_cons.2 ⟨(isWord_changeCase hc).2, hrest⟩

variable [Transliteration]

theorem isIdentifierChar_latinOperationId (id : String) :
    ∀ c ∈ latinOperationId id, IsIdentifierChar c := by
  rw [latinOperationId]
  split
  · intro c hc
    exact isIdentifierChar_of_isWord (isWord_lowerFirst (isWord_onlyWords _) c hc)
  · next hnone =>
    intro c hc
    have hkept := (List.mem_filter.1 hc).2
    rw [Bool.or_eq_true, Bool.or_eq_true, beq_iff_eq] at hkept
    obtain (hword | hdollar) | hwide := hkept
    · exact isIdentifierChar_of_isWord hword
    · exact .inr (.inr hdollar)
    · exact absurd (List.any_eq_true.2 ⟨c, hc, hwide⟩) hnone

theorem isDeclarable_functionName? {id name : String} {method : HttpMethod}
    (h : functionName? id method = some name) :
    IsDeclarable name := by
  rw [functionName?] at h
  dsimp only at h
  split at h
  · cases h
  · next hne =>
    obtain rfl := Option.some.inj h
    apply isDeclarable_avoidReserved
    rw [String.toList_ofList]
    rw [List.isEmpty_iff] at hne
    exact isIdentifier_mark hne (isIdentifierChar_latinOperationId id)

theorem isWord_segmentName (segment : List Char) :
    ∀ c ∈ segmentName segment, isWord c = true := by
  rw [segmentName]
  split
  · next name _ =>
    have hname := isWord_upperFirst (isWord_sanitize (replaceDotChars name))
    exact List.forall_mem_cons.2 ⟨by decide, List.forall_mem_cons.2 ⟨by decide, hname⟩⟩
  · exact isWord_upperFirst (isWord_sanitize (replaceDotChars segment))

theorem isDeclarable_defaultFunctionName (method : HttpMethod) (path : String) :
    IsDeclarable (defaultFunctionName method path) := by
  apply isDeclarable_avoidReserved
  rw [String.toList_ofList]
  have hmethod : IsIdentifier method.text.toList := by
    cases method <;> decide +kernel
  apply hmethod.append
  intro c hc
  obtain ⟨segment, -, hc⟩ := List.mem_flatMap.1 hc
  exact isIdentifierChar_of_isWord (isWord_segmentName segment c hc)

end FunctionNames

end ApiClient.Naming
