import ApiClient.Proofs.Identifiers
import ApiClient.Proofs.ParamsTypes
import ApiClient.Proofs.Pointers

namespace ApiClient

namespace Naming

open Text Json

section Weights

def total (weight : Char → Nat) : List Char → Nat
  | [] => 0
  | c :: cs => weight c + total weight cs

variable {weight : Char → Nat}

@[simp] theorem total_nil : total weight [] = 0 := rfl

@[simp] theorem total_cons (c : Char) (cs : List Char) :
    total weight (c :: cs) = weight c + total weight cs := rfl

@[simp] theorem total_append (cs ds : List Char) :
    total weight (cs ++ ds) = total weight cs + total weight ds := by
  induction cs with
  | nil => simp
  | cons c cs ih => simp [ih, Nat.add_assoc]

theorem total_congr {other : Char → Nat} {cs : List Char} (h : ∀ c ∈ cs, weight c = other c) :
    total weight cs = total other cs := by
  induction cs with
  | nil => rfl
  | cons c cs ih =>
    obtain ⟨hc, hcs⟩ := List.forall_mem_cons.1 h
    rw [total_cons, total_cons, hc, ih hcs]

theorem total_eq_zero {cs : List Char} (h : ∀ c ∈ cs, weight c = 0) : total weight cs = 0 := by
  induction cs with
  | nil => rfl
  | cons c cs ih =>
    obtain ⟨hc, hcs⟩ := List.forall_mem_cons.1 h
    rw [total_cons, hc, ih hcs]

theorem total_filter {p : Char → Bool} {cs : List Char}
    (h : ∀ c ∈ cs, p c = false → weight c = 0) : total weight (cs.filter p) = total weight cs := by
  induction cs with
  | nil => rfl
  | cons c cs ih =>
    obtain ⟨hc, hcs⟩ := List.forall_mem_cons.1 h
    rw [List.filter_cons, total_cons, ← ih hcs]
    split
    · rw [total_cons]
    · next hp => rw [hc (Bool.eq_false_iff.2 hp), Nat.zero_add]

theorem total_trim (h : ∀ c, isBlank c = true → weight c = 0) (cs : List Char) :
    total weight (trim cs) = total weight cs := by
  have hstart : total weight (trimStart cs) = total weight cs := by
    have hsplit := congrArg (total weight)
      (List.takeWhile_append_dropWhile (p := isBlank) (l := cs))
    have hblank : total weight (cs.takeWhile isBlank) = 0 :=
      total_eq_zero fun c hc => h c (List.mem_takeWhile_imp hc)
    rw [total_append, hblank, Nat.zero_add] at hsplit
    exact hsplit
  have hend : total weight (trim cs) = total weight (trimStart cs) := by
    have hsplit := congrArg (total weight)
      (List.rdropWhile_append_rtakeWhile (p := isBlank) (l := trimStart cs))
    have hblank : total weight ((trimStart cs).rtakeWhile isBlank) = 0 :=
      total_eq_zero fun c hc => h c (List.mem_rtakeWhile_imp hc)
    rw [total_append, hblank, Nat.add_zero] at hsplit
    exact hsplit
  rw [hend, hstart]

theorem total_afterLast_le (p : Char → Bool) (cs : List Char) :
    total weight (afterLast p cs) ≤ total weight cs := by
  have hsplit := congrArg (total weight)
    (List.rdropWhile_append_rtakeWhile (p := fun c => !p c) (l := cs))
  rw [total_append] at hsplit
  exact Nat.le.intro ((Nat.add_comm _ _).trans hsplit)

variable (htilde : weight '~' = 0) (hslash : weight '/' = 0)

include htilde hslash in
theorem total_le_escapeSegment (cs : List Char) :
    total weight cs ≤ total weight (escapeSegment cs) := by
  induction cs with
  | nil => exact Nat.le_refl _
  | cons c cs ih =>
    rw [escapeSegment_cons, total_append, total_cons]
    have hone : weight c ≤ total weight (segmentChar c) := by
      obtain ⟨rfl, -⟩ | ⟨rfl, -⟩ | ⟨-, he⟩ := segmentChar_cases c
      · omega
      · omega
      · simp [he]
    omega

include htilde hslash in
theorem total_lt_escapeSegment (hzero : 0 < weight '0') (hone : 0 < weight '1') {cs : List Char}
    (h : ¬ ∀ c ∈ cs, IsPlain c) : total weight cs < total weight (escapeSegment cs) := by
  induction cs with
  | nil => exact absurd (by simp) h
  | cons c cs ih =>
    have hrest := total_le_escapeSegment htilde hslash cs
    rw [escapeSegment_cons, total_append, total_cons]
    obtain ⟨rfl, he⟩ | ⟨rfl, he⟩ | ⟨hplain, he⟩ := segmentChar_cases c
    · rw [he, total_cons, total_cons]
      omega
    · rw [he, total_cons, total_cons]
      omega
    · have htail : ¬ ∀ c ∈ cs, IsPlain c := fun hall => h (List.forall_mem_cons.2 ⟨hplain, hall⟩)
      have hlt := ih htail
      rw [he, total_cons, total_nil]
      omega

end Weights

section Digits

def digit (c : Char) : Nat :=
  if c.isDigit then 1 else 0

variable [Transliteration]

/-- The digits that a character of a type name is spelt with. -/
def digits (c : Char) : Nat :=
  if isWord c || isIdeograph c then total digit (latin c) else 0

theorem digits_of_isWord {c : Char} (h : isWord c = true) : digits c = digit c := by
  have hascii : c.toNat < 128 := (isIdentifierChar_of_isWord h).toNat_lt
  rw [digits, h, Bool.true_or, if_pos rfl, latin, if_pos hascii, total_cons, total_nil,
    Nat.add_zero]

theorem digits_eq_zero {c : Char} (h : (isWord c || isIdeograph c) = false) : digits c = 0 := by
  rw [digits, h, if_neg Bool.false_ne_true]

omit [Transliteration] in
theorem isBlank_eq_false {c : Char} (h : (isWord c || isIdeograph c) = true) :
    isBlank c = false := by
  rw [Bool.or_eq_true] at h
  obtain hword | hwide := h
  · exact forall_ascii (P := fun c => isWord c = true → isBlank c = false) (by decide +kernel)
      (isIdentifierChar_of_isWord hword).toNat_lt hword
  · simp only [isIdeograph, Bool.and_eq_true, decide_eq_true_eq] at hwide
    simp only [isBlank, Bool.or_eq_false_iff, Bool.and_eq_false_iff, decide_eq_false_iff_not,
      beq_eq_false_iff_ne]
    omega

omit [Transliteration] in
theorem digit_eq_zero_of_isBlank {c : Char} (h : isBlank c = true) : digit c = 0 := by
  rw [digit]
  split
  · next hdigit =>
    have hword : (isWord c || isIdeograph c) = true := by simp [isWord, Char.isAlphanum, hdigit]
    rw [isBlank_eq_false hword] at h
    cases h
  · rfl

theorem digits_eq_zero_of_isBlank {c : Char} (h : isBlank c = true) : digits c = 0 := by
  apply digits_eq_zero
  rw [← Bool.not_eq_true]
  intro hkept
  rw [isBlank_eq_false hkept] at h
  cases h

omit [Transliteration] in
theorem digit_changeCase {c : Char} (h : isWord c = true) :
    digit c.toUpper = digit c ∧ digit c.toLower = digit c :=
  forall_ascii (P := fun c => isWord c = true → digit c.toUpper = digit c ∧
    digit c.toLower = digit c) (by decide +kernel) (isIdentifierChar_of_isWord h).toNat_lt h

theorem total_joinSeparated (cs : List Char) :
    total digits (joinSeparated cs) = total digits cs := by
  fun_induction joinSeparated cs with
  | case1 => rfl
  | case2 => rfl
  | case3 c next rest hjoin ih =>
    rw [Bool.and_eq_true] at hjoin
    obtain ⟨hseparator, hword⟩ := hjoin
    have hupper : digits next.toUpper = digits next := by
      rw [digits_of_isWord (isWord_changeCase hword).1, digits_of_isWord hword,
        (digit_changeCase hword).1]
    have hnone : digits c = 0 := by
      simp only [isSeparator, Bool.or_eq_true, beq_iff_eq] at hseparator
      obtain (rfl | rfl) | rfl := hseparator <;> rfl
    simp [hupper, hnone, ih]
  | case4 c next rest hjoin ih => rw [total_cons, total_cons, ih]

theorem total_normalize (cs : List Char) : total digits (normalize cs) = total digits cs := by
  rw [normalize, total_filter fun c _ h => digits_eq_zero h, total_joinSeparated]

omit [Transliteration] in
theorem total_digit_onlyWords (cs : List Char) : total digit (onlyWords cs) = total digit cs := by
  rw [onlyWords]
  apply total_filter
  intro c _ hno
  rw [digit]
  split
  · next hdigit => simp [isWord, Char.isAlphanum, hdigit] at hno
  · rfl

theorem total_onlyWords (cs : List Char) : total digits (onlyWords cs) = total digit cs := by
  rw [← total_digit_onlyWords]
  exact total_congr fun c hc => digits_of_isWord (isWord_onlyWords cs c hc)

omit [Transliteration] in
theorem total_map_toLower {cs : List Char} (h : ∀ c ∈ cs, isWord c = true) :
    total digit (cs.map Char.toLower) = total digit cs := by
  induction cs with
  | nil => rfl
  | cons c cs ih =>
    obtain ⟨hc, hcs⟩ := List.forall_mem_cons.1 h
    rw [List.map_cons, total_cons, total_cons, (digit_changeCase hc).2, ih hcs]

theorem total_transliterate {name : List Char} (h : ∀ c ∈ name, IsKept c) :
    total digits (transliterate name) = total digits name := by
  rw [transliterate, total_onlyWords]
  induction name with
  | nil => rfl
  | cons c name ih =>
    obtain ⟨hc, hname⟩ := List.forall_mem_cons.1 h
    have hkept : (isWord c || isIdeograph c) = true := by rwa [Bool.or_eq_true]
    rw [List.flatMap_cons, total_append, total_cons, ih hname, digits, if_pos hkept]

theorem total_identifier {name : List Char} (h : ∀ c ∈ name, IsKept c) :
    total digits (identifier name) = total digits name := by
  have hmark : total digits fallbackMark = 0 := rfl
  have hspelt : total digits (if name.any isIdeograph then transliterate name else name) =
      total digits name := by
    split
    · exact total_transliterate h
    · rfl
  rw [identifier]
  split
  · rw [total_append, hmark, Nat.zero_add]
  · dsimp only
    rw [← hspelt]
    generalize (if name.any isIdeograph then transliterate name else name) = spelt
    split
    · rw [total_cons]
      exact Nat.zero_add _
    · rfl

end Digits

section Texts

def nameParts (raw : List Char) : List (List Char) :=
  (raw.splitOnP (· == ',')).map trim

def tokenText? (parts : List (List Char)) : Option (List Char) :=
  parts.findSome? ("PublicKeyToken=".toList.isPrefixOf? ·)

/-- The texts that a plain name is made of: the end of its first part and, unless nothing is left of
that, the public key token. -/
def nameTexts (raw : List Char) : List (List Char) :=
  match nameParts raw with
  | [] => []
  | first :: parts =>
    afterLast (· == '.') first ::
      if (normalize (lastSegment first)).isEmpty then [] else (tokenText? parts).toList

theorem plainName_of_parts {raw first : List Char} {parts : List (List Char)}
    (h : nameParts raw = first :: parts) : plainName raw =
      if (normalize (lastSegment first)).isEmpty then [] else
        normalize (lastSegment first) ++ ((keyToken? parts).map ('_' :: ·)).getD [] := by
  rw [plainName, ← nameParts, h]
  dsimp only
  cases hempty : (normalize (lastSegment first)).isEmpty with
  | true =>
    rw [List.isEmpty_iff.1 hempty]
    cases keyToken? parts <;> rfl
  | false => cases keyToken? parts <;> simp

theorem nameParts_escapeSegment (raw : List Char) :
    nameParts (escapeSegment raw) = (nameParts raw).map escapeSegment := by
  have hcomma : IgnoresEscapes (· == ',') := ⟨rfl, rfl, rfl, rfl⟩
  rw [nameParts, nameParts, splitOnP_escapeSegment hcomma, List.map_map, List.map_map]
  congr 1
  funext part
  exact trim_escapeSegment part

theorem tokenText_escapeSegment (parts : List (List Char)) :
    tokenText? (parts.map escapeSegment) = (tokenText? parts).map escapeSegment := by
  have hplain : "PublicKeyToken=".toList.all (fun c => decide (IsPlain c)) = true := by decide
  rw [List.all_eq_true] at hplain
  rw [tokenText?, tokenText?, List.findSome?_map, List.map_findSome?]
  congr 1
  funext part
  exact isPrefixOf?_escapeSegment (fun c hc => of_decide_eq_true (hplain c hc)) part

theorem lastSegment_eq (cs : List Char) :
    lastSegment cs = trim (afterLast (· == '/') (afterLast (· == '.') cs)) := by
  rw [lastSegment]
  congr 1
  induction cs using List.reverseRecOn with
  | nil => rfl
  | append_singleton cs c ih =>
    rw [afterLast_concat, afterLast_concat, ih]
    cases hdot : c == '.' with
    | true => simp [afterLast]
    | false => simp [afterLast_concat]

theorem lastSegment_escapeSegment (cs : List Char) :
    lastSegment (escapeSegment cs) = escapeSegment (trim (afterLast (· == '.') cs)) := by
  have hdot : IgnoresEscapes (· == '.') := ⟨rfl, rfl, rfl, rfl⟩
  have hslash := slash_notMem_escapeSegment (afterLast (· == '.') cs)
  rw [lastSegment_eq, afterLast_escapeSegment hdot, afterLast_of_none (beq_eq_false hslash),
    trim_escapeSegment]

theorem lastSegment_of_plain {cs : List Char} (h : ∀ c ∈ afterLast (· == '.') cs, IsPlain c) :
    lastSegment (escapeSegment cs) = lastSegment cs := by
  have hslash : '/' ∉ afterLast (· == '.') cs := fun hc => (h _ hc).2 rfl
  rw [lastSegment_escapeSegment, lastSegment_eq, afterLast_of_none (beq_eq_false hslash),
    ← trim_escapeSegment, escapeSegment_plain h]

theorem plainName_escapeSegment {raw : List Char}
    (h : ∀ text ∈ nameTexts raw, ∀ c ∈ text, IsPlain c) :
    plainName (escapeSegment raw) = plainName raw := by
  have hescaped := nameParts_escapeSegment raw
  cases hparts : nameParts raw with
  | nil =>
    rw [plainName, plainName, ← nameParts, ← nameParts, hescaped, hparts]
    rfl
  | cons first parts =>
    rw [hparts, List.map_cons] at hescaped
    rw [nameTexts, hparts] at h
    obtain ⟨hfirst, hrest⟩ := List.forall_mem_cons.1 h
    rw [plainName_of_parts hescaped, plainName_of_parts hparts, lastSegment_of_plain hfirst]
    split
    · rfl
    · next hempty =>
      rw [if_neg hempty] at hrest
      have htoken : tokenText? (parts.map escapeSegment) = tokenText? parts := by
        rw [tokenText_escapeSegment]
        cases htext : tokenText? parts with
        | none => rfl
        | some text =>
          rw [Option.map_some, escapeSegment_plain (hrest text (by simp [htext]))]
      rw [keyToken?, keyToken?, ← tokenText?, ← tokenText?, htoken]

variable [Transliteration]

theorem total_keyToken (parts : List (List Char)) :
    total digits (((keyToken? parts).map ('_' :: ·)).getD []) =
      total digit ((tokenText? parts).getD []) := by
  rw [keyToken?, ← tokenText?]
  cases htext : tokenText? parts with
  | none => rfl
  | some text =>
    have hwords : total digits (onlyWords (trim text)) = total digit text := by
      rw [total_onlyWords, total_trim fun c => digit_eq_zero_of_isBlank]
    rw [Option.bind_some, Option.getD_some, ← hwords]
    dsimp only
    split
    · next hnone =>
      rw [Bool.or_eq_true, List.isEmpty_iff, beq_iff_eq] at hnone
      obtain hempty | hnull := hnone
      · rw [hempty]
        rfl
      · have hlower := total_map_toLower (isWord_onlyWords (trim text))
        rw [hnull] at hlower
        rw [total_onlyWords, ← total_digit_onlyWords, ← hlower]
        rfl
    · rw [Option.map_some, Option.getD_some, total_cons]
      exact Nat.zero_add _

theorem total_plainName {raw first : List Char} {parts : List (List Char)}
    (h : nameParts raw = first :: parts) : total digits (plainName raw) =
      total digits (lastSegment first) +
        if (normalize (lastSegment first)).isEmpty then 0
        else total digit ((tokenText? parts).getD []) := by
  rw [plainName_of_parts h]
  split
  · next hempty =>
    rw [← total_normalize (lastSegment first), List.isEmpty_iff.1 hempty, Nat.add_zero]
  · rw [total_append, total_normalize, total_keyToken]

theorem total_lastSegment_lt {cs : List Char}
    (h : ¬ ∀ c ∈ afterLast (· == '.') cs, IsPlain c) :
    total digits (lastSegment cs) < total digits (lastSegment (escapeSegment cs)) := by
  -- a slash that is not escaped may only cut something off
  have hsegment : total digits (lastSegment cs) ≤ total digits (afterLast (· == '.') cs) := by
    rw [lastSegment_eq, total_trim fun c => digits_eq_zero_of_isBlank]
    exact total_afterLast_le _ _
  have hescape : total digits (lastSegment (escapeSegment cs)) =
      total digits (escapeSegment (afterLast (· == '.') cs)) := by
    rw [lastSegment_escapeSegment, ← trim_escapeSegment,
      total_trim fun c => digits_eq_zero_of_isBlank]
  rw [hescape]
  exact hsegment.trans_lt (total_lt_escapeSegment rfl rfl Nat.one_pos Nat.one_pos h)

/-- An escape in one of the texts that a name is made of adds a digit to the name. -/
theorem total_plainName_lt {raw : List Char}
    (h : ¬ ∀ text ∈ nameTexts raw, ∀ c ∈ text, IsPlain c) :
    total digits (plainName raw) < total digits (plainName (escapeSegment raw)) := by
  have hescaped := nameParts_escapeSegment raw
  cases hparts : nameParts raw with
  | nil => simp [nameTexts, hparts] at h
  | cons first parts =>
    rw [hparts, List.map_cons] at hescaped
    rw [nameTexts, hparts] at h
    rw [total_plainName hparts, total_plainName hescaped, tokenText_escapeSegment]
    by_cases hfirst : ∀ c ∈ afterLast (· == '.') first, IsPlain c
    · rw [lastSegment_of_plain hfirst]
      have hrest : ¬ ∀ text ∈ (if (normalize (lastSegment first)).isEmpty then []
          else (tokenText? parts).toList), ∀ c ∈ text, IsPlain c :=
        fun hall => h (List.forall_mem_cons.2 ⟨hfirst, hall⟩)
      split at hrest
      · exact absurd (by simp) hrest
      · next hempty =>
        rw [if_neg hempty, if_neg hempty]
        cases htext : tokenText? parts with
        | none => exact absurd (by simp [htext]) hrest
        | some text =>
          have hplain : ¬ ∀ c ∈ text, IsPlain c := by simpa [htext] using hrest
          exact Nat.add_lt_add_left
            (total_lt_escapeSegment rfl rfl Nat.one_pos Nat.one_pos hplain) _
    · have hlt := total_lastSegment_lt hfirst
      have htoken : total digit ((tokenText? parts).getD []) ≤
          total digit (((tokenText? parts).map escapeSegment).getD []) := by
        cases tokenText? parts with
        | none => exact Nat.le_refl _
        | some text => exact total_le_escapeSegment rfl rfl text
      have hkept : ¬ (normalize (lastSegment (escapeSegment first))).isEmpty = true := by
        intro hempty
        have hnone := total_normalize (lastSegment (escapeSegment first))
        rw [List.isEmpty_iff.1 hempty, total_nil] at hnone
        omega
      rw [if_neg hkept]
      split <;> omega

end Texts

section Segments

theorem genericParts_escapeSegment {raw : List Char} (h : genericParts? raw = none) :
    genericParts? (escapeSegment raw) = none := by
  have hnone (cs : List Char) : genericParts? cs = none ↔ ¬ ['[', '['] <:+: cs := by
    rw [← isSome_breakAtMark, genericParts?, Option.map_eq_none_iff, Option.not_isSome_iff_eq_none]
  rw [hnone] at h ⊢
  exact fun hopen => h (infix_of_escapeSegment (by simp [IsPlain]) hopen)

theorem referenceTail_componentReference (key : String) :
    referenceTail (componentReference key) = String.ofList (escapeSegment key.toList) := by
  have hslash := slash_notMem_escapeSegment key.toList
  rw [referenceTail, toList_componentReference, ← List.cons_append, ← List.cons_append,
    ← List.cons_append, ← List.append_assoc, afterLast_append_mark (p := (· == '/')) rfl
      (beq_eq_false hslash)]

theorem isPlain_of_isReserved {name : String} (h : isReserved name = true) :
    ∀ c ∈ name.toList, IsPlain c := by
  intro c hc
  have hchar := (isReserved_spec h).1.chars c hc
  constructor
  · rintro rfl
    exact absurd hchar (by decide)
  · rintro rfl
    exact absurd hchar (by decide)

theorem isReserved_escapeSegment {cs : List Char} (h : ¬ ∀ c ∈ cs, IsPlain c) :
    isReserved (String.ofList (escapeSegment cs)) = false := by
  rw [← Bool.not_eq_true]
  intro hreserved
  have hplain := isPlain_of_isReserved hreserved
  rw [String.toList_ofList] at hplain
  apply h
  intro c hc
  by_contra hescaped
  exact (hplain '~' (tilde_mem_escapeSegment hc hescaped)).1 rfl

variable [Transliteration]

theorem sanitize_of_plain {raw : List Char} (h : genericParts? raw = none) :
    sanitize raw = identifier (plainName raw) := by
  rw [sanitize]
  split
  · rfl
  · next hparts =>
    rw [h] at hparts
    cases hparts

theorem typeName_escapeSegment_iff {key : String} (h : genericParts? key.toList = none) :
    typeName (String.ofList (escapeSegment key.toList)) = typeName key ↔
      ∀ text ∈ nameTexts key.toList, ∀ c ∈ text, IsPlain c := by
  by_cases hplain : ∀ c ∈ key.toList, IsPlain c
  · have hsame := escapeSegment_plain hplain
    refine ⟨fun _ => ?_, fun _ => by rw [hsame, String.ofList_toList]⟩
    by_contra htexts
    have hlt := total_plainName_lt htexts
    rw [hsame] at hlt
    exact Nat.lt_irrefl _ hlt
  · have hkey : isReserved key = false :=
      Bool.eq_false_iff.2 fun hreserved => hplain (isPlain_of_isReserved hreserved)
    have hsegment := isReserved_escapeSegment hplain
    rw [typeName, typeName, hkey, hsegment, if_neg Bool.false_ne_true, if_neg Bool.false_ne_true,
      String.ofList_inj, String.toList_ofList, sanitize_of_plain h,
      sanitize_of_plain (genericParts_escapeSegment h)]
    constructor
    · intro hsame
      by_contra htexts
      have hlt := total_plainName_lt htexts
      rw [← total_identifier (isKept_plainName _), ← total_identifier (isKept_plainName _),
        hsame] at hlt
      exact Nat.lt_irrefl _ hlt
    · intro htexts
      rw [plainName_escapeSegment htexts]

end Segments

end Naming

variable [Text.Transliteration]

/-- A reference walks along the name of its component as a key. Names without an escape have the
type name that references to them have; for a name that is not generic, the two agree exactly when
no text that the type name is made of has a character that is escaped. -/
theorem Document.referenceTypeName_iff (d : Document) (t : Typing) (style : EnumStyle)
    (is : List Interface) (h : d.interfaces t style = .ok is) :
    List.Forall₂ (fun key i =>
      Json.pointerKeys? (Json.componentReference key) = some ["components", "schemas", key] ∧
        ((∀ c ∈ key.toList, Json.IsPlain c) →
          Naming.referenceTypeName (Json.componentReference key) = i.typeName) ∧
        (Naming.genericParts? key.toList = none →
          (Naming.referenceTypeName (Json.componentReference key) = i.typeName ↔
            ∀ text ∈ Naming.nameTexts key.toList, ∀ c ∈ text, Json.IsPlain c)))
      d.componentNames is := by
  rw [componentNames, List.forall₂_map_left_iff]
  refine (forall₂_interfaces h).imp fun entry i hi => ?_
  obtain ⟨named, -, rfl⟩ := hi
  have hname : (named.toInterface entry.1).typeName = Naming.typeName entry.1 := rfl
  rw [hname, Naming.referenceTypeName, Naming.referenceTail_componentReference]
  refine ⟨Json.pointerKeys_componentReference entry.1, fun hplain => ?_,
    Naming.typeName_escapeSegment_iff⟩
  rw [Json.escapeSegment_plain hplain, String.ofList_toList]

end ApiClient

namespace ApiClient

def schemasTree (names : List String) : Json :=
  documentTree [] (names.map fun name => (name, .object []))

def pathNamedRun : Run :=
  .ofTree .default (schemasTree ["store/v1.Pet"]) (by decide +kernel)

theorem pathNamedRun_names : ∃ is, pathNamedRun.document.interfaces pathNamedRun.typing
      .stringLiteral = .ok is ∧ is.map Interface.typeName = ["Pet"] ∧
    Naming.referenceTypeName "#/components/schemas/store~1v1.Pet" = "Pet" := by
  obtain ⟨is, his, hnames⟩ : ∃ is, pathNamedRun.document.interfaces pathNamedRun.typing
      .stringLiteral = .ok is ∧ is.map Interface.typeName = ["Pet"] :=
    exists_ok_of_map (by decide +kernel)
  refine ⟨is, his, hnames, ?_⟩
  have hagree := pathNamedRun.document.referenceTypeName_iff pathNamedRun.typing
    .stringLiteral is his
  have hkeys : pathNamedRun.document.componentNames = ["store/v1.Pet"] := by decide +kernel
  rw [hkeys] at hagree
  obtain ⟨i, rest, ⟨-, -, hi⟩, -, rfl⟩ := List.forall₂_cons_left_iff.1 hagree
  have htype : i.typeName = "Pet" := (List.cons.inj hnames).1
  have hreference : "#/components/schemas/store~1v1.Pet" =
      Json.componentReference "store/v1.Pet" := by decide +kernel
  have htexts : Naming.nameTexts "store/v1.Pet".toList = ["Pet".toList] := by decide +kernel
  have hplain : ∀ text ∈ Naming.nameTexts "store/v1.Pet".toList, ∀ c ∈ text, Json.IsPlain c := by
    rw [htexts, List.forall_mem_singleton]
    simp [Json.IsPlain]
  rw [hreference, (hi (by decide +kernel)).2 hplain, htype]

def tildeNamedRun : Run :=
  .ofTree .default (schemasTree ["pet~v2"]) (by decide +kernel)

theorem not_referenceTypeName : ¬ ∀ (d : Document) (t : Typing) (style : EnumStyle)
    (is : List Interface), d.interfaces t style = .ok is →
      List.Forall₂ (fun key i =>
        Naming.referenceTypeName (Json.componentReference key) = i.typeName)
        d.componentNames is := by
  intro agree
  obtain ⟨is, his, hnames⟩ : ∃ is, tildeNamedRun.document.interfaces tildeNamedRun.typing
      .stringLiteral = .ok is ∧ is.map Interface.typeName = ["petv2"] :=
    exists_ok_of_map (by decide +kernel)
  have hagree := agree tildeNamedRun.document tildeNamedRun.typing .stringLiteral is his
  have hkeys : tildeNamedRun.document.componentNames = ["pet~v2"] := by decide +kernel
  rw [hkeys] at hagree
  obtain ⟨i, rest, hi, -, rfl⟩ := List.forall₂_cons_left_iff.1 hagree
  have htype : i.typeName = "petv2" := (List.cons.inj hnames).1
  rw [htype] at hi
  revert hi
  decide +kernel

end ApiClient
