import ApiClient.Proofs.TypeNames

namespace ApiClient.Naming

open Text

theorem isReserved_ofList {cs : List Char} (h : isReserved (String.ofList cs) = true) :
    IsIdentifier cs ∧ ∀ c ∈ cs, c.isLower = true := by
  simpa only [String.toList_ofList] using isReserved_spec h

theorem isReserved_ofList_of_mem {cs : List Char} {c : Char} (hc : c ∈ cs)
    (hlower : c.isLower = false) : isReserved (String.ofList cs) = false :=
  isReserved_of_mem (String.toList_ofList.symm ▸ hc) hlower

theorem isUnusable_of_isReserved {name : List Char} (h : isReserved (String.ofList name) = true) :
    isUnusable name = false := by
  obtain ⟨hid, hlower⟩ := isReserved_ofList h
  cases name with
  | nil => exact absurd rfl hid.ne_nil
  | cons c rest =>
    have hc : c.isLower = true := hlower c List.mem_cons_self
    have hdigit : c.isDigit = false := hid.head
    have hmark : c ≠ '_' := by
      rintro rfl
      exact absurd hc (by decide)
    simp [isUnusable, hdigit, hmark]

theorem mark_mem_intercalate {part next : List Char} {rest : List (List Char)} :
    '_' ∈ List.intercalate ['_'] (part :: next :: rest) := by
  simp [List.intercalate_cons_cons]

variable [Transliteration]

theorem mark_mem_spelt {name : List Char} (h : '_' ∈ name) : '_' ∈ spelt name := by
  rw [spelt]
  split
  · exact List.mem_filter.2 ⟨List.mem_flatMap.2 ⟨'_', h, List.mem_singleton_self _⟩, rfl⟩
  · exact h

theorem isReserved_spelt_nil : ¬ isReserved (String.ofList (spelt [])) = true :=
  Bool.false_ne_true

/-- No reserved word comes of a mark that is put in front of a name. -/
theorem isReserved_identifier (name : List Char) :
    isReserved (String.ofList (identifier name)) = isReserved (String.ofList (spelt name)) := by
  rw [identifier_eq]
  split
  · next hunusable =>
    have hspelt := spelt_of_isWord (isWord_of_isUnusable hunusable)
    have hname : isReserved (String.ofList name) = false := by
      rw [← Bool.not_eq_true]
      intro h
      rw [isUnusable_of_isReserved h] at hunusable
      cases hunusable
    rw [hspelt, hname]
    exact isReserved_ofList_of_mem (c := 'M') (List.mem_append_left _ (by decide)) (by decide)
  · split
    · next hdigit =>
      have hname : isReserved (String.ofList (spelt name)) = false := by
        rw [← Bool.not_eq_true]
        intro h
        rw [(isReserved_ofList h).1.head] at hdigit
        cases hdigit
      rw [hname]
      exact isReserved_ofList_of_mem List.mem_cons_self (by decide)
    · rfl

section Plain

omit [Transliteration] in
theorem exists_nameParts (raw : List Char) : ∃ first parts, nameParts raw = first :: parts := by
  have hne : nameParts raw ≠ [] := mt List.map_eq_nil_iff.1 (List.splitOnP_ne_nil _ raw)
  exact List.exists_cons_of_ne_nil hne

variable {raw first : List Char} {parts : List (List Char)}

theorem isReserved_plainName (h : nameParts raw = first :: parts) :
    isReserved (String.ofList (spelt (plainName raw))) = true ↔ keyToken? parts = none ∧
      isReserved (String.ofList (spelt (normalize (lastSegment first)))) = true := by
  rw [plainName_of_parts h]
  cases htoken : keyToken? parts with
  | none =>
    have hbase : (if (normalize (lastSegment first)).isEmpty then [] else
        normalize (lastSegment first) ++ ((none : Option (List Char)).map ('_' :: ·)).getD []) =
          normalize (lastSegment first) := by
      split
      · next hempty => exact (List.isEmpty_iff.1 hempty).symm
      · exact List.append_nil _
    rw [hbase]
    simp
  | some token =>
    refine ⟨fun hreserved => ?_, fun ⟨hnone, _⟩ => absurd hnone (Option.some_ne_none token)⟩
    split at hreserved
    · exact absurd hreserved isReserved_spelt_nil
    · rw [isReserved_ofList_of_mem (mark_mem_spelt (by simp)) (by decide)] at hreserved
      cases hreserved

end Plain

def namedArguments (arguments : List (List Char)) : List (List Char) :=
  arguments.filter fun a => !(sanitize a).isEmpty

/-- All that is left of a text for its name is one word: that of a plain name without a public key
token, the outer name of a generic without arguments, or that of the one argument of a generic
without an outer name. -/
inductive LeavesOnly : List Char → List Char → Prop where
  | plain {raw first : List Char} {parts : List (List Char)} (hplain : genericParts? raw = none)
      (hparts : nameParts raw = first :: parts) (htoken : keyToken? parts = none) :
      LeavesOnly raw (normalize (lastSegment first))
  | outer {raw word : List Char} {arguments : List (List Char)}
      (hparts : genericParts? raw = some (word, arguments))
      (hnone : namedArguments arguments = []) : LeavesOnly raw word
  | argument {raw a word : List Char} {arguments : List (List Char)}
      (hparts : genericParts? raw = some ([], arguments)) (hone : namedArguments arguments = [a])
      (ha : LeavesOnly a word) : LeavesOnly raw word

section Generic

variable {raw outer : List Char} {arguments : List (List Char)}

theorem filter_parts (outer : List Char) (arguments : List (List Char)) :
    (outer :: arguments.map sanitize).filter (!·.isEmpty) =
      (if outer.isEmpty then [] else [outer]) ++ (namedArguments arguments).map sanitize := by
  rw [namedArguments, List.filter_cons, List.filter_map]
  cases outer <;> rfl

theorem isReserved_generic (h : genericParts? raw = some (outer, arguments)) :
    isReserved (String.ofList (sanitize raw)) = true ↔
      (namedArguments arguments = [] ∧ isReserved (String.ofList (spelt outer)) = true) ∨
      (outer = [] ∧ ∃ a, namedArguments arguments = [a] ∧
        isReserved (String.ofList (sanitize a)) = true) := by
  have hjoined (part next : List Char) (rest : List (List Char)) :
      isReserved (String.ofList (spelt (List.intercalate ['_'] (part :: next :: rest)))) = false :=
    isReserved_ofList_of_mem (mark_mem_spelt mark_mem_intercalate) (by decide)
  rw [sanitize_of_generic h, isReserved_identifier, filter_parts]
  cases outer with
  | nil =>
    match namedArguments arguments with
    | [] => simp [isReserved_spelt_nil]
    | [a] => simp [spelt_of_isWord (isWord_sanitize a)]
    | a :: b :: rest => simpa using hjoined (sanitize a) (sanitize b) (rest.map sanitize)
  | cons c outer =>
    match namedArguments arguments with
    | [] => simp
    | a :: rest => simpa using hjoined (c :: outer) (sanitize a) (rest.map sanitize)

end Generic

theorem isReserved_sanitize_iff (raw : List Char) :
    isReserved (String.ofList (sanitize raw)) = true ↔
      ∃ word, LeavesOnly raw word ∧ isReserved (String.ofList (spelt word)) = true := by
  induction raw using sanitize.induct with
  | case1 raw hplain =>
    obtain ⟨first, parts, hparts⟩ := exists_nameParts raw
    rw [sanitize_of_plain hplain, isReserved_identifier, isReserved_plainName hparts]
    constructor
    · rintro ⟨htoken, hreserved⟩
      exact ⟨_, .plain hplain hparts htoken, hreserved⟩
    · rintro ⟨word, hword, hreserved⟩
      cases hword with
      | plain _ hparts' htoken =>
        obtain ⟨rfl, rfl⟩ := List.cons.inj (hparts.symm.trans hparts')
        exact ⟨htoken, hreserved⟩
      | outer hgeneric => cases hplain.symm.trans hgeneric
      | argument hgeneric => cases hplain.symm.trans hgeneric
  | case2 raw outer arguments hgeneric ih =>
    have hmem {a : List Char} (hone : namedArguments arguments = [a]) : a ∈ arguments :=
      (List.mem_filter.1 (hone ▸ List.mem_singleton_self a)).1
    rw [isReserved_generic hgeneric]
    constructor
    · rintro (⟨hnone, hreserved⟩ | ⟨rfl, a, hone, hreserved⟩)
      · exact ⟨outer, .outer hgeneric hnone, hreserved⟩
      · obtain ⟨word, hword, hreserved⟩ := (ih a (hmem hone)).1 hreserved
        exact ⟨word, .argument hgeneric hone hword, hreserved⟩
    · rintro ⟨word, hword, hreserved⟩
      cases hword with
      | plain hplain => cases hplain.symm.trans hgeneric
      | outer hgeneric' hnone =>
        cases hgeneric.symm.trans hgeneric'
        exact .inl ⟨hnone, hreserved⟩
      | argument hgeneric' hone hword =>
        cases hgeneric.symm.trans hgeneric'
        exact .inr ⟨rfl, _, hone, (ih _ (hmem hone)).2 ⟨word, hword, hreserved⟩⟩

/-- A type name is no reserved word exactly when its text is one, and is marked, or no reserved word
is all that is left of the text. -/
theorem typeName_free_iff (raw : String) : isReserved (typeName raw) = false ↔
    isReserved raw = true ∨
      ∀ word, LeavesOnly raw.toList word → isReserved (String.ofList (spelt word)) = false := by
  rw [typeName]
  split
  · next hreserved =>
    have hmarked : isReserved (reservedMark ++ raw) = false :=
      isReserved_of_mem (c := '_') (by simp [reservedMark]) (by decide)
    exact iff_of_true hmarked (.inl hreserved)
  · next hfree =>
    rw [or_iff_right hfree, ← Bool.not_eq_true, isReserved_sanitize_iff]
    simp only [not_exists, not_and, Bool.not_eq_true]

end ApiClient.Naming

namespace ApiClient.Naming

theorem not_typeName_free : ¬ ∀ raw : String, isReserved (typeName raw) = false := by
  intro free
  have hname : typeName "com.example.delete" = "delete" := by decide +kernel
  have hfree := free "com.example.delete"
  rw [hname] at hfree
  exact absurd hfree (by decide)

end ApiClient.Naming
