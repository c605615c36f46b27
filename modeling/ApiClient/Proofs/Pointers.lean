import ApiClient.Json.Pointer
import ApiClient.Proofs.Letters
import ApiClient.Text.Blank
import Mathlib.Data.List.DropRight

namespace ApiClient

namespace Text

theorem beq_eq_false {mark : Char} {cs : List Char} (h : mark ∉ cs) :
    ∀ c ∈ cs, (c == mark) = false :=
  fun _ hc => beq_false_of_ne fun he => h (he ▸ hc)

variable {p : Char → Bool}

theorem afterLast_concat (p : Char → Bool) (cs : List Char) (c : Char) :
    afterLast p (cs ++ [c]) = if p c then [] else afterLast p cs ++ [c] := by
  rw [afterLast, ← List.rtakeWhile, List.rtakeWhile_concat]
  cases p c <;> rfl

theorem afterLast_of_none {cs : List Char} (h : ∀ c ∈ cs, p c = false) : afterLast p cs = cs := by
  rw [afterLast, ← List.rtakeWhile, List.rtakeWhile_eq_self_iff]
  intro c hc
  rw [h c hc]
  rfl

theorem afterLast_append_mark {mark : Char} {after : List Char} (hmark : p mark = true)
    (h : ∀ c ∈ after, p c = false) (before : List Char) :
    afterLast p (before ++ mark :: after) = after := by
  induction after using List.reverseRecOn with
  | nil => rw [afterLast_concat, if_pos hmark]
  | append_singleton after c ih =>
    rw [List.forall_mem_append, List.forall_mem_singleton] at h
    rw [← List.cons_append, ← List.append_assoc, afterLast_concat, h.2, if_neg Bool.false_ne_true,
      ih h.1]

theorem trimEnd_concat (cs : List Char) (c : Char) :
    trimEnd (cs ++ [c]) = if isBlank c then trimEnd cs else cs ++ [c] :=
  List.rdropWhile_concat isBlank cs c

end Text

namespace Json

open Text

def segmentChar (c : Char) : List Char :=
  if c = '~' then ['~', '0'] else if c = '/' then ['~', '1'] else [c]

def escapeSegment (cs : List Char) : List Char :=
  cs.flatMap segmentChar

def IsPlain (c : Char) : Prop :=
  c ≠ '~' ∧ c ≠ '/'

instance (c : Char) : Decidable (IsPlain c) :=
  inferInstanceAs (Decidable (_ ∧ _))

theorem segmentChar_plain {c : Char} (h : IsPlain c) : segmentChar c = [c] := by
  rw [segmentChar, if_neg h.1, if_neg h.2]

@[simp] theorem escapeSegment_nil : escapeSegment [] = [] := rfl

@[simp] theorem escapeSegment_cons (c : Char) (cs : List Char) :
    escapeSegment (c :: cs) = segmentChar c ++ escapeSegment cs := rfl

@[simp] theorem escapeSegment_append (cs ds : List Char) :
    escapeSegment (cs ++ ds) = escapeSegment cs ++ escapeSegment ds :=
  List.flatMap_append

theorem segmentChar_cases (c : Char) :
    (c = '~' ∧ segmentChar c = ['~', '0']) ∨ (c = '/' ∧ segmentChar c = ['~', '1']) ∨
      (IsPlain c ∧ segmentChar c = [c]) := by
  by_cases ht : c = '~'
  · exact .inl ⟨ht, by rw [ht]; rfl⟩
  · by_cases hs : c = '/'
    · exact .inr (.inl ⟨hs, by rw [hs]; rfl⟩)
    · exact .inr (.inr ⟨⟨ht, hs⟩, segmentChar_plain ⟨ht, hs⟩⟩)

theorem escapeSegment_plain {cs : List Char} (h : ∀ c ∈ cs, IsPlain c) : escapeSegment cs = cs := by
  induction cs with
  | nil => rfl
  | cons c cs ih =>
    obtain ⟨hc, hcs⟩ := List.forall_mem_cons.1 h
    rw [escapeSegment_cons, segmentChar_plain hc, ih hcs]
    rfl

theorem mem_escapeSegment {c : Char} {cs : List Char} (h : c ∈ escapeSegment cs) :
    (c ∈ cs ∧ IsPlain c) ∨ c = '~' ∨ c = '0' ∨ c = '1' := by
  obtain ⟨d, hd, hc⟩ := List.mem_flatMap.1 h
  obtain ⟨-, he⟩ | ⟨-, he⟩ | ⟨hplain, he⟩ := segmentChar_cases d
  · rw [he, List.mem_pair] at hc
    exact .inr (hc.imp_right .inl)
  · rw [he, List.mem_pair] at hc
    exact .inr (hc.imp_right .inr)
  · rw [he, List.mem_singleton] at hc
    subst hc
    exact .inl ⟨hd, hplain⟩

theorem slash_notMem_escapeSegment (cs : List Char) : '/' ∉ escapeSegment cs := by
  intro h
  obtain ⟨-, hplain⟩ | h | h | h := mem_escapeSegment h
  · exact hplain.2 rfl
  all_goals exact absurd h (by decide)

theorem tilde_mem_escapeSegment {c : Char} {cs : List Char} (hc : c ∈ cs) (h : ¬ IsPlain c) :
    '~' ∈ escapeSegment cs := by
  apply List.mem_flatMap.2
  obtain ⟨-, he⟩ | ⟨-, he⟩ | ⟨hplain, -⟩ := segmentChar_cases c
  · exact ⟨c, hc, by simp [he]⟩
  · exact ⟨c, hc, by simp [he]⟩
  · exact absurd hplain h

theorem unescapeSegment_cons {c : Char} (h : c ≠ '~') (cs : List Char) :
    unescapeSegment (c :: cs) = c :: unescapeSegment cs := by
  cases cs with
  | nil => rfl
  | cons d ds => rw [unescapeSegment, if_neg (fun hc => h hc.1), if_neg (fun hc => h hc.1)]

theorem unescape_escapeSegment (cs : List Char) : unescapeSegment (escapeSegment cs) = cs := by
  induction cs with
  | nil => rfl
  | cons c cs ih =>
    rw [escapeSegment_cons]
    obtain ⟨rfl, he⟩ | ⟨rfl, he⟩ | ⟨hplain, he⟩ := segmentChar_cases c
    · rw [he, List.cons_append, List.singleton_append, unescapeSegment, if_neg (by decide),
        if_pos (by decide), ih]
    · rw [he, List.cons_append, List.singleton_append, unescapeSegment, if_pos (by decide), ih]
    · rw [he, List.singleton_append, unescapeSegment_cons hplain.1, ih]

section Cutting

variable {p : Char → Bool}

/-- A test that tells nothing about what escapes are written with. -/
def IgnoresEscapes (p : Char → Bool) : Prop :=
  p '~' = false ∧ p '/' = false ∧ p '0' = false ∧ p '1' = false

theorem splitOnP_escapeSegment (hp : IgnoresEscapes p) (cs : List Char) :
    (escapeSegment cs).splitOnP p = (cs.splitOnP p).map escapeSegment := by
  induction cs with
  | nil => rfl
  | cons c cs ih =>
    obtain ⟨first, others, hpieces⟩ := List.exists_cons_of_ne_nil (List.splitOnP_ne_nil p cs)
    rw [escapeSegment_cons]
    obtain ⟨rfl, he⟩ | ⟨rfl, he⟩ | ⟨-, he⟩ := segmentChar_cases c
    · simp [List.splitOnP_cons_eq_if_modifyHead, he, hp.1, hp.2.2.1, ih, hpieces]
    · simp [List.splitOnP_cons_eq_if_modifyHead, he, hp.1, hp.2.1, hp.2.2.2, ih, hpieces]
    · cases hc : p c with
      | true => simp [List.splitOnP_cons_eq_if_modifyHead, he, hc, ih]
      | false => simp [List.splitOnP_cons_eq_if_modifyHead, he, hc, ih, hpieces]

theorem escapeSegment_concat (cs : List Char) (c : Char) :
    escapeSegment (cs ++ [c]) = escapeSegment cs ++ segmentChar c := by
  rw [escapeSegment_append, escapeSegment_cons, escapeSegment_nil, List.append_nil]

theorem afterLast_escapeSegment (hp : IgnoresEscapes p) (cs : List Char) :
    afterLast p (escapeSegment cs) = escapeSegment (afterLast p cs) := by
  obtain ⟨htilde, hslash, hzero, hone⟩ := hp
  induction cs using List.reverseRecOn with
  | nil => rfl
  | append_singleton cs c ih =>
    rw [escapeSegment_concat, afterLast_concat]
    obtain ⟨rfl, he⟩ | ⟨rfl, he⟩ | ⟨-, he⟩ := segmentChar_cases c
    · rw [he, List.append_cons, afterLast_concat, afterLast_concat, hzero, htilde, ih]
      simp [he]
    · rw [he, List.append_cons, afterLast_concat, afterLast_concat, hone, htilde, hslash, ih]
      simp [he]
    · rw [he, afterLast_concat, ih]
      cases p c <;> simp [he]

theorem trimStart_escapeSegment (cs : List Char) :
    trimStart (escapeSegment cs) = escapeSegment (trimStart cs) := by
  induction cs with
  | nil => rfl
  | cons c cs ih =>
    rw [trimStart] at ih
    obtain ⟨rfl, he⟩ | ⟨rfl, he⟩ | ⟨-, he⟩ := segmentChar_cases c
    · rfl
    · rfl
    · rw [trimStart, trimStart, escapeSegment_cons, he, List.singleton_append, List.dropWhile_cons,
        List.dropWhile_cons]
      split
      · rw [ih]
        rfl
      · rw [escapeSegment_cons, he]
        rfl

theorem trimEnd_escapeSegment (cs : List Char) :
    trimEnd (escapeSegment cs) = escapeSegment (trimEnd cs) := by
  have hblank : isBlank '~' = false ∧ isBlank '/' = false ∧ isBlank '0' = false ∧
      isBlank '1' = false := by decide
  obtain ⟨htilde, hslash, hzero, hone⟩ := hblank
  induction cs using List.reverseRecOn with
  | nil => rfl
  | append_singleton cs c ih =>
    rw [escapeSegment_concat, trimEnd_concat]
    obtain ⟨rfl, he⟩ | ⟨rfl, he⟩ | ⟨-, he⟩ := segmentChar_cases c
    · rw [he, List.append_cons, trimEnd_concat, hzero, htilde]
      simp [he]
    · rw [he, List.append_cons, trimEnd_concat, hone, hslash]
      simp [he]
    · rw [he, trimEnd_concat, ih]
      cases isBlank c <;> simp [he]

theorem trim_escapeSegment (cs : List Char) :
    trim (escapeSegment cs) = escapeSegment (trim cs) := by
  rw [trim, trim, trimStart_escapeSegment, trimEnd_escapeSegment]

theorem isPrefixOf?_escapeSegment {start : List Char} (h : ∀ c ∈ start, IsPlain c)
    (cs : List Char) :
    start.isPrefixOf? (escapeSegment cs) = (start.isPrefixOf? cs).map escapeSegment := by
  induction start generalizing cs with
  | nil => rfl
  | cons s start ih =>
    obtain ⟨hs, hstart⟩ := List.forall_mem_cons.1 h
    cases cs with
    | nil => rfl
    | cons c cs =>
      rw [escapeSegment_cons]
      obtain ⟨rfl, he⟩ | ⟨rfl, he⟩ | ⟨-, he⟩ := segmentChar_cases c
      · simp [he, List.isPrefixOf?, hs.1]
      · simp [he, List.isPrefixOf?, hs.1, hs.2]
      · rw [he, List.singleton_append, List.isPrefixOf?, List.isPrefixOf?, ih hstart]
        split <;> rfl

theorem prefix_escapeSegment {start : List Char} (h : ∀ c ∈ start, IsPlain c) (cs : List Char) :
    start <+: escapeSegment cs ↔ start <+: cs := by
  rw [← List.isPrefixOf_iff_prefix, ← List.isPrefixOf_iff_prefix,
    ← List.isSome_isPrefixOf?_eq_isPrefixOf, ← List.isSome_isPrefixOf?_eq_isPrefixOf,
    isPrefixOf?_escapeSegment h, Option.isSome_map]

theorem infix_of_escapeSegment {mark cs : List Char}
    (h : ∀ c ∈ mark, IsPlain c ∧ c ≠ '0' ∧ c ≠ '1') (hin : mark <:+: escapeSegment cs) :
    mark <:+: cs := by
  cases mark with
  | nil => exact List.nil_infix
  | cons m mark =>
    obtain ⟨⟨hm, hzero, hone⟩, -⟩ := List.forall_mem_cons.1 h
    induction cs with
    | nil => exact hin
    | cons c cs ih =>
      have hstart := (prefix_escapeSegment (fun d hd => (h d hd).1) (c :: cs)).1
      rw [escapeSegment_cons] at hin hstart
      rw [List.infix_cons_iff]
      -- the mark cannot start inside an escape
      obtain ⟨-, he⟩ | ⟨-, he⟩ | ⟨-, he⟩ := segmentChar_cases c
      · rw [he, List.cons_append, List.singleton_append, List.infix_cons_iff,
          List.infix_cons_iff] at hin
        obtain hp | hp | hrest := hin
        · exact absurd (List.cons_prefix_cons.1 hp).1 hm.1
        · exact absurd (List.cons_prefix_cons.1 hp).1 hzero
        · exact .inr (ih hrest)
      · rw [he, List.cons_append, List.singleton_append, List.infix_cons_iff,
          List.infix_cons_iff] at hin
        obtain hp | hp | hrest := hin
        · exact absurd (List.cons_prefix_cons.1 hp).1 hm.1
        · exact absurd (List.cons_prefix_cons.1 hp).1 hone
        · exact .inr (ih hrest)
      · rw [he, List.singleton_append] at hin hstart
        obtain hp | hrest := List.infix_cons_iff.1 hin
        · exact .inl (hstart hp)
        · exact .inr (ih hrest)

end Cutting

def componentReference (key : String) : String :=
  "#/components/schemas/" ++ String.ofList (escapeSegment key.toList)

theorem toList_componentReference (key : String) : (componentReference key).toList =
    '#' :: '/' :: ("components".toList ++ '/' :: ("schemas".toList ++
      '/' :: escapeSegment key.toList)) := by
  have hstart : "#/components/schemas/".toList =
      '#' :: '/' :: ("components".toList ++ '/' :: ("schemas".toList ++ ['/'])) := by decide
  have hreference : (componentReference key).toList =
      "#/components/schemas/".toList ++ escapeSegment key.toList :=
    String.toList_append.trans (congrArg _ String.toList_ofList)
  rw [hreference, hstart]
  simp only [List.cons_append, List.append_assoc, List.nil_append]

/-- The reference that walks along some keys. -/
def pointerTo (keys : List String) : String :=
  "#/" ++ "/".intercalate (keys.map fun key => String.ofList (escapeSegment key.toList))

theorem toList_pointerTo (keys : List String) : (pointerTo keys).toList =
    '#' :: '/' :: ['/'].intercalate (keys.map fun key => escapeSegment key.toList) := by
  simp [pointerTo, String.toList_intercalate, List.map_map, Function.comp_def]

/-- All keys are read back, the empty ones and those with escaped characters, too. -/
theorem pointerKeys_pointerTo {keys : List String} (h : keys ≠ []) :
    pointerKeys? (pointerTo keys) = some keys := by
  have hsegments : (['/'].intercalate (keys.map fun key => escapeSegment key.toList)).splitOnP
      (· == '/') = keys.map fun key => escapeSegment key.toList := by
    refine List.splitOn_intercalate '/' ?_ (by simpa using h)
    rw [List.forall_mem_map]
    exact fun key _ => slash_notMem_escapeSegment key.toList
  have hkey : (fun key : String =>
      String.ofList (unescapeSegment (escapeSegment key.toList))) = id := by
    funext key
    rw [unescape_escapeSegment, String.ofList_toList]
    rfl
  rw [pointerKeys?, toList_pointerTo]
  simp only [List.isPrefixOf?, beq_self_eq_true, if_true, Option.map_some, hsegments, List.map_map,
    Function.comp_def, hkey, List.map_id]

theorem componentReference_eq_pointerTo (key : String) :
    componentReference key = pointerTo ["components", "schemas", key] := by
  have hcomponents : escapeSegment "components".toList = "components".toList := by decide
  have hschemas : escapeSegment "schemas".toList = "schemas".toList := by decide
  apply String.toList_injective
  rw [toList_componentReference, toList_pointerTo]
  simp only [List.map_cons, List.map_nil, List.intercalate_cons_cons, List.intercalate_singleton,
    hcomponents, hschemas, List.append_assoc, List.singleton_append]

theorem pointerKeys_componentReference (key : String) :
    pointerKeys? (componentReference key) = some ["components", "schemas", key] := by
  rw [componentReference_eq_pointerTo]
  exact pointerKeys_pointerTo (List.cons_ne_nil _ _)

end Json

end ApiClient
