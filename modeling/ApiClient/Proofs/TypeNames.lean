import ApiClient.Proofs.ReferenceNames

namespace ApiClient.Naming

open Text

/-- Letters, digits and underscores, of which the first is no digit. -/
structure IsTypeName (cs : List Char) : Prop where
  ne_nil : cs ≠ []
  words : ∀ c ∈ cs, isWord c = true
  head : startsWithDigit cs = false

variable [Transliteration]

/-- The Latin spelling of every ideograph has a letter, a digit or an underscore. -/
def SpellsIdeographs : Prop :=
  ∀ c, isIdeograph c = true → ∃ d ∈ latin c, isWord d = true

def spelt (name : List Char) : List Char :=
  if name.any isIdeograph then transliterate name else name

theorem spelt_of_isWord {name : List Char} (h : ∀ c ∈ name, isWord c = true) :
    spelt name = name := by
  rw [spelt, if_neg]
  intro hwide
  obtain ⟨c, hc, hc'⟩ := List.any_eq_true.1 hwide
  have hlt := (isIdentifierChar_of_isWord (h c hc)).toNat_lt
  simp only [isIdeograph, Bool.and_eq_true, decide_eq_true_eq] at hc'
  omega

theorem spelt_ne_nil (hspells : SpellsIdeographs) {name : List Char} (h : name ≠ []) :
    spelt name ≠ [] := by
  rw [spelt]
  split
  · next hwide =>
    obtain ⟨c, hc, hc'⟩ := List.any_eq_true.1 hwide
    obtain ⟨d, hd, hword⟩ := hspells c hc'
    apply List.ne_nil_of_mem (a := d)
    exact List.mem_filter.2 ⟨List.mem_flatMap.2 ⟨c, hc, hd⟩, hword⟩
  · exact h

section Identifiers

variable (name : List Char)

theorem identifier_eq : identifier name =
    if isUnusable name then fallbackMark ++ name
    else if startsWithDigit (spelt name) then '_' :: spelt name else spelt name := rfl

theorem startsWithDigit_identifier : startsWithDigit (identifier name) = false := by
  rw [identifier_eq]
  split
  · rfl
  · split
    · rfl
    · next hdigit => exact Bool.eq_false_iff.2 hdigit

theorem identifier_ne_nil (hspells : SpellsIdeographs) : identifier name ≠ [] := by
  rw [identifier_eq]
  split
  · exact List.append_ne_nil_of_left_ne_nil (by decide) name
  · next husable =>
    have hname : name ≠ [] := by
      rintro rfl
      exact husable rfl
    split
    · exact List.cons_ne_nil _ _
    · exact spelt_ne_nil hspells hname

end Identifiers

theorem sanitize_of_generic {raw outer : List Char} {arguments : List (List Char)}
    (h : genericParts? raw = some (outer, arguments)) : sanitize raw =
      identifier (List.intercalate ['_']
        ((outer :: arguments.map sanitize).filter (!·.isEmpty))) := by
  rw [sanitize]
  split
  · next hnone =>
    rw [h] at hnone
    cases hnone
  · next hparts =>
    obtain ⟨rfl, rfl⟩ := Prod.mk.inj (Option.some.inj (h.symm.trans hparts))
    rw [List.map_attach_eq_pmap, List.pmap_eq_map]

/-- The last thing done to any text is to make an identifier of what is left of it. -/
theorem exists_identifier (raw : List Char) : ∃ name, sanitize raw = identifier name := by
  cases h : genericParts? raw with
  | none => exact ⟨_, sanitize_of_plain h⟩
  | some parts => exact ⟨_, sanitize_of_generic h⟩

theorem isTypeName_sanitize (hspells : SpellsIdeographs) (raw : List Char) :
    IsTypeName (sanitize raw) := by
  obtain ⟨name, hname⟩ := exists_identifier raw
  refine ⟨?_, isWord_sanitize raw, ?_⟩
  · rw [hname]
    exact identifier_ne_nil name hspells
  · rw [hname]
    exact startsWithDigit_identifier name

theorem isTypeName_typeName (hspells : SpellsIdeographs) (raw : String) :
    IsTypeName (typeName raw).toList := by
  refine ⟨?_, isWord_typeName raw, ?_⟩ <;> rw [typeName] <;> split
  · rw [String.toList_append]
    exact List.append_ne_nil_of_left_ne_nil (by decide) raw.toList
  · rw [String.toList_ofList]
    exact (isTypeName_sanitize hspells raw.toList).ne_nil
  · rw [String.toList_append]
    rfl
  · rw [String.toList_ofList]
    exact (isTypeName_sanitize hspells raw.toList).head

/-- Every text and every reference has a type name that is a word, if every ideograph is spelt. -/
theorem typeNames_are_words (hspells : SpellsIdeographs) :
    (∀ raw, IsTypeName (typeName raw).toList) ∧
      ∀ reference, IsTypeName (referenceTypeName reference).toList :=
  ⟨isTypeName_typeName hspells, fun reference =>
    isTypeName_typeName hspells (referenceTail reference)⟩

section Single

variable {c : Char}

omit [Transliteration] in
theorem isIdeograph_ne {d : Char} (h : isIdeograph c = true) (hd : d.toNat < 128) : c ≠ d := by
  rintro rfl
  simp only [isIdeograph, Bool.and_eq_true, decide_eq_true_eq] at h
  omega

omit [Transliteration] in
theorem isAlphanum_ideograph (h : isIdeograph c = true) : c.isAlphanum = false := by
  rw [← Bool.not_eq_true]
  intro halpha
  exact isIdeograph_ne h (toNat_lt_of_isAlphanum halpha) rfl

omit [Transliteration] in
theorem plainName_ideograph (h : isIdeograph c = true) : plainName [c] = [c] := by
  have hblank : isBlank c = false := isBlank_eq_false (by rw [h, Bool.or_true])
  have hcomma := isIdeograph_ne (d := ',') h (by decide)
  have hslash := isIdeograph_ne (d := '/') h (by decide)
  have hdot := isIdeograph_ne (d := '.') h (by decide)
  have htrim : trim [c] = [c] := by simp [trim, trimStart, trimEnd, hblank]
  simp [plainName, List.splitOnP_cons_eq_if_modifyHead, keyToken?, lastSegment, afterLast,
    normalize, joinSeparated, htrim, hcomma, hslash, hdot, h]

theorem identifier_ideograph (h : isIdeograph c = true) (hnone : ∀ d ∈ latin c, isWord d = false) :
    identifier [c] = [] := by
  have hdigit : c.isDigit = false := (Bool.or_eq_false_iff.1 (isAlphanum_ideograph h)).2
  have hunderscore := isIdeograph_ne (d := '_') h (by decide)
  have hspelt : spelt [c] = [] := by
    simpa [spelt, h, transliterate, onlyWords] using hnone
  rw [identifier_eq, hspelt, if_neg (by simp [isUnusable, hdigit, hunderscore])]
  rfl

theorem spellsIdeographs_iff : SpellsIdeographs ↔ ∀ raw, typeName raw ≠ "" := by
  constructor
  · intro hspells raw hempty
    apply (isTypeName_typeName hspells raw).ne_nil
    rw [hempty, String.toList_empty]
  · intro h c hwide
    by_contra hnone
    push Not at hnone
    apply h (String.singleton c)
    have halpha : c.isAlpha = false := (Bool.or_eq_false_iff.1 (isAlphanum_ideograph hwide)).1
    have hfree : isReserved (String.singleton c) = false :=
      isReserved_of_mem (c := c) (by simp) (Bool.or_eq_false_iff.1 halpha).2
    have hplain : genericParts? [c] = none := by simp [genericParts?, breakAtMark]
    have hempty := identifier_ideograph hwide fun d hd => by simpa using hnone d hd
    rw [typeName, hfree, if_neg Bool.false_ne_true, String.toList_singleton,
      sanitize_of_plain hplain, plainName_ideograph hwide, hempty, String.ofList_nil]

end Single

end ApiClient.Naming

namespace ApiClient.Naming

theorem spellsIdeographs_listedReadings : SpellsIdeographs := by
  intro c hwide
  have hreadings : Text.readings.all (fun entry => entry.2.toList.any isWord) = true := by decide
  have hascii : ¬ c.toNat < 128 := by
    simp only [Text.isIdeograph, Bool.and_eq_true, decide_eq_true_eq] at hwide
    omega
  rw [Text.latin, if_neg hascii, Text.Transliteration.spelling, Text.listedReadings]
  dsimp only
  split
  · next reading hreading =>
    obtain ⟨before, after, hmem, -⟩ := List.lookup_eq_some_iff.1 hreading
    exact List.any_eq_true.1 (List.all_eq_true.1 hreadings (c, reading)
      (hmem ▸ List.mem_append_right _ List.mem_cons_self))
  · exact ⟨'U', List.mem_cons_self, by decide⟩

theorem typeNames_are_words_pets : SpellsIdeographs ∧ typeName "Ns.宠物" = "ChongWu" ∧
    typeName "2d-Box`1[[enum]]" = "_2dBox_enum" ∧ typeName "404" = "Model_404" ∧
    IsTypeName "ChongWu".toList ∧ IsTypeName "_2dBox_enum".toList ∧
    IsTypeName "Model_404".toList := by
  obtain ⟨hwords, -⟩ := typeNames_are_words spellsIdeographs_listedReadings
  have hpets : typeName "Ns.宠物" = "ChongWu" := by decide +kernel
  have hbox : typeName "2d-Box`1[[enum]]" = "_2dBox_enum" := by decide +kernel
  have hdigits : typeName "404" = "Model_404" := by decide +kernel
  exact ⟨spellsIdeographs_listedReadings, hpets, hbox, hdigits, hpets ▸ hwords _,
    hbox ▸ hwords _, hdigits ▸ hwords _⟩

end ApiClient.Naming
