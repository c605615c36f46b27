import ApiClient.Naming.FunctionName
import ApiClient.Proofs.Placeholders
import ApiClient.Proofs.Pointers

namespace ApiClient

namespace Text

variable {p : Char → Bool}

theorem mem_of_mem_afterLast {x : Char} {cs : List Char} (h : x ∈ afterLast p cs) : x ∈ cs :=
  List.mem_reverse.1 ((List.takeWhile_prefix _).subset (List.mem_reverse.1 h))

theorem mem_afterLast_append {x : Char} {a b : List Char} :
    x ∈ afterLast p (a ++ b) ↔ x ∈ afterLast p b ∨ x ∈ afterLast p a ∧ ∀ c ∈ b, p c = false := by
  induction b using List.reverseRecOn with
  | nil => simp [afterLast]
  | append_singleton b c ih =>
    rw [← List.append_assoc, afterLast_concat, afterLast_concat]
    cases hc : p c with
    | true => simp [hc]
    | false =>
      simp only [Bool.false_eq_true, if_false, List.mem_append, List.mem_singleton, ih,
        or_imp, forall_and, forall_eq, hc, and_true]
      exact or_right_comm

theorem around_mem_splitOnP (before rest : List Char) :
    afterLast p before ++ rest.takeWhile (fun c => !p c) ∈ (before ++ rest).splitOnP p := by
  induction before using List.reverseRecOn generalizing rest with
  | nil =>
    obtain ⟨others, hpieces⟩ := splitOnP_eq_cons p rest
    rw [List.nil_append, hpieces]
    exact List.mem_cons_self
  | append_singleton before c ih =>
    rw [afterLast_concat, List.append_assoc, List.singleton_append]
    split
    · next hc =>
      obtain ⟨others, hpieces⟩ := splitOnP_eq_cons p rest
      rw [List.splitOnP_append_cons _ _ hc, hpieces]
      exact List.mem_append_right _ List.mem_cons_self
    · next hc =>
      have hrest := ih (c :: rest)
      rw [List.takeWhile_cons_of_pos (by simpa using hc)] at hrest
      rwa [List.append_assoc, List.singleton_append]

theorem afterLast_eq_nil_iff {cs : List Char} :
    afterLast p cs = [] ↔ ∀ c ∈ cs.getLast?, p c = true := by
  induction cs using List.reverseRecOn with
  | nil => simp [afterLast]
  | append_singleton cs c _ =>
    rw [afterLast_concat, List.getLast?_concat]
    cases hc : p c <;> simp [hc]

end Text

namespace Path

/-- The pieces of a path, each with the rest of the path from there on. -/
def placedPieces : List Char → List (List Char × Piece)
  | [] => []
  | c :: rest =>
    match _h : token? (c :: rest) with
    | some (name, after) => (c :: rest, .token name) :: placedPieces after
    | none => (c :: rest, .char c) :: placedPieces rest
termination_by cs => cs.length
decreasing_by
  · exact length_of_token? _h
  · simp

def HasTokenAt (path before rest name : List Char) : Prop :=
  path = before ++ rest ∧ (rest, .token name) ∈ placedPieces path

def StartsSegment (before : List Char) : Prop :=
  ∀ c ∈ before.getLast?, c = '/'

/-- A variable of a path is a name in braces, or a name behind a colon with which a segment
starts. -/
inductive IsVariable (before : List Char) : List Char → List Char → Prop
  | braces {name rest : List Char} : '}' ∉ name →
      IsVariable before ('{' :: (name ++ '}' :: rest)) name
  | segment {name rest : List Char} : StartsSegment before →
      IsVariable before (':' :: (name ++ rest)) name

/-- The last brace before a place opens, and it is closed behind. -/
def InBraces (before rest : List Char) : Prop :=
  '{' ∈ Text.afterLast (· == '}') before ∧ '}' ∈ rest

/-- Outside of braces a colon stands in front of a name only where a segment starts. -/
def ColonsStartSegments (path : List Char) : Prop :=
  ∀ before c after, path = before ++ ':' :: c :: after → isNameChar c = true →
    StartsSegment before ∨ InBraces before (c :: after)

def segmentAround (before rest : List Char) : List Char :=
  Text.afterLast (· == '/') before ++ rest.takeWhile (· != '/')

section Places

variable {path before rest name : List Char}

theorem map_snd_placedPieces (cs : List Char) : (placedPieces cs).map Prod.snd = pieces cs := by
  fun_induction pieces cs with
  | case1 => rw [placedPieces]; rfl
  | case2 c rest name after htoken ih =>
    rw [placedPieces]
    split
    · next name' after' htoken' =>
      cases htoken.symm.trans htoken'
      rw [List.map_cons, ih]
    · next hno => cases hno.symm.trans htoken
  | case3 c rest hno ih =>
    rw [placedPieces]
    split
    · next name' after' htoken' => cases hno.symm.trans htoken'
    · rw [List.map_cons, ih]

theorem suffix_of_mem_places (h : rest ∈ (placedPieces path).map Prod.fst) : rest <:+ path := by
  fun_induction placedPieces path with
  | case1 => cases h
  | case2 c tail name after htoken ih =>
    obtain rfl | h := List.mem_cons.1 h
    · exact List.suffix_rfl
    · exact (ih h).trans (token?_spec htoken).2.1
  | case3 c tail hno ih =>
    obtain rfl | h := List.mem_cons.1 h
    · exact List.suffix_rfl
    · exact (ih h).trans (List.suffix_cons c tail)

theorem mem_placedPieces_token : (rest, .token name) ∈ placedPieces path ↔
    rest ∈ (placedPieces path).map Prod.fst ∧ ∃ after, token? rest = some (name, after) := by
  fun_induction placedPieces path with
  | case1 => simp
  | case2 c tail name' after' htoken ih =>
    rw [List.mem_cons, List.map_cons, List.mem_cons, ih, or_and_right]
    refine or_congr_left ⟨?_, ?_⟩
    · rintro hfirst
      obtain ⟨rfl, rfl⟩ : rest = c :: tail ∧ name = name' := by simpa using hfirst
      exact ⟨rfl, after', htoken⟩
    · rintro ⟨rfl, after, hafter⟩
      cases htoken.symm.trans hafter
      rfl
  | case3 c tail hno ih =>
    rw [List.mem_cons, List.map_cons, List.mem_cons, ih, or_and_right]
    refine or_congr_left (iff_of_false (by simp) ?_)
    rintro ⟨rfl, after, hafter⟩
    exact nomatch hno.symm.trans hafter

theorem inBraces_append {start : List Char} (h : '{' ∉ Text.afterLast (· == '}') start) :
    InBraces (start ++ before) rest ↔ InBraces before rest := by
  rw [InBraces, InBraces, Text.mem_afterLast_append, or_iff_left fun hstart => h hstart.1]

theorem not_inBraces_nil : ¬ InBraces [] rest :=
  fun h => absurd h.1 List.not_mem_nil

theorem append_eq_append_cons {a b u v : List Char} {x : Char} (h : a ++ b = u ++ x :: v) :
    (∃ w, u = a ++ w ∧ b = w ++ x :: v) ∨ ∃ w, a = u ++ x :: w ∧ v = w ++ b := by
  obtain ⟨w, hu, hb⟩ | ⟨w, ha, hv⟩ := List.append_eq_append_iff.1 h
  · exact .inl ⟨w, hu, hb⟩
  · cases w with
    | nil => exact .inl ⟨[], by simpa using ha.symm, by simpa using hv.symm⟩
    | cons y w =>
      obtain ⟨rfl, rfl⟩ := List.cons.inj hv
      exact .inr ⟨w, ha, rfl⟩

theorem inBraces_cons {c : Char} (h : c ≠ '{') :
    InBraces (c :: before) rest ↔ InBraces before rest := by
  have hopen : '{' ∉ Text.afterLast (· == '}') [c] :=
    fun hmem => h (List.mem_singleton.1 (Text.mem_of_mem_afterLast hmem)).symm
  exact inBraces_append hopen

theorem inBraces_behind (name : List Char) :
    InBraces ('{' :: (name ++ '}' :: before)) rest ↔ InBraces before rest := by
  have hclosed : '{' ∉ Text.afterLast (· == '}') ('{' :: name ++ ['}']) := by
    rw [Text.afterLast_concat, if_pos (beq_self_eq_true _)]
    exact List.not_mem_nil
  have hbehind : InBraces ('{' :: name ++ ['}'] ++ before) rest ↔ InBraces before rest :=
    inBraces_append hclosed
  rwa [List.append_assoc, List.singleton_append, List.cons_append] at hbehind

theorem inBraces_inside (h : '}' ∉ before) (inside after : List Char) :
    InBraces ('{' :: before) (inside ++ '}' :: after) := by
  have hopen : '}' ∉ '{' :: before := List.not_mem_cons_of_ne_of_not_mem (by decide) h
  refine ⟨?_, List.mem_append_right _ List.mem_cons_self⟩
  rw [Text.afterLast_of_none (Text.beq_eq_false hopen)]
  exact List.mem_cons_self

theorem not_inBraces_of_token? (h : token? ('{' :: (before ++ ':' :: rest)) = none) :
    InBraces ('{' :: before) rest ↔ InBraces before rest := by
  rw [InBraces, ← List.singleton_append, Text.mem_afterLast_append, or_and_right]
  refine or_iff_left ?_
  rintro ⟨⟨-, hbefore⟩, hclosed⟩
  obtain ⟨inside, after, rfl, hinside⟩ := List.eq_append_cons_of_mem hclosed
  have hname : '}' ∉ before ++ ':' :: inside := by
    rw [List.mem_append, List.mem_cons]
    rintro (hmem | hmem | hmem)
    · exact absurd (hbefore _ hmem) (by decide)
    · exact absurd hmem (by decide)
    · exact hinside hmem
  have htoken : IsToken ('{' :: (before ++ ':' :: inside ++ '}' :: after)) _ after :=
    .braces (by simp) hname
  rw [List.append_assoc, List.cons_append] at htoken
  cases h.symm.trans htoken.token?_eq

/-- A token in braces covers what stands in it, and every other colon is come to. -/
theorem mem_places_iff (h : path = before ++ ':' :: rest) :
    ':' :: rest ∈ (placedPieces path).map Prod.fst ↔ ¬ InBraces before rest := by
  fun_induction placedPieces path generalizing before with
  | case1 => simp at h
  | case2 c tail name after htoken ih =>
    cases before with
    | nil => exact iff_of_true (h ▸ List.mem_cons_self) not_inBraces_nil
    | cons d before =>
      have hne : ':' :: rest ≠ c :: tail := fun heq =>
        List.cons_ne_nil d before (List.self_eq_append_left.1 (heq.trans h))
      rw [List.map_cons, List.mem_cons, or_iff_right hne]
      cases IsToken.of_token? htoken with
      | colon _ hname _ =>
        obtain ⟨rfl, htail⟩ := List.cons.inj h
        obtain ⟨w, rfl, hafter⟩ | ⟨w, rfl, -⟩ := append_eq_append_cons htail
        · rw [ih hafter, inBraces_cons (by decide), inBraces_append]
          intro hopen
          exact absurd (hname _ (Text.mem_of_mem_afterLast hopen)) (by decide)
        · exact absurd (hname ':' (by simp)) (by decide)
      | braces _ hname =>
        obtain ⟨rfl, htail⟩ := List.cons.inj h
        obtain ⟨w, rfl, hafter⟩ | ⟨w, rfl, rfl⟩ := append_eq_append_cons htail
        · cases w with
          | nil => exact absurd (List.cons.inj hafter).1 (by decide)
          | cons e w =>
            rw [List.cons_append] at hafter
            obtain ⟨rfl, hnext⟩ := List.cons.inj hafter
            rw [ih hnext, inBraces_behind]
        · have hbefore : '}' ∉ before := fun hclose => hname (List.mem_append_left _ hclose)
          refine iff_of_false (fun hplace => ?_) (not_not_intro (inBraces_inside hbefore w after))
          have hlength := (suffix_of_mem_places hplace).length_le
          rw [List.length_cons, List.length_append, List.length_cons] at hlength
          omega
  | case3 c tail hno ih =>
    cases before with
    | nil => exact iff_of_true (h ▸ List.mem_cons_self) not_inBraces_nil
    | cons d before =>
      have hne : ':' :: rest ≠ c :: tail := fun heq =>
        List.cons_ne_nil d before (List.self_eq_append_left.1 (heq.trans h))
      rw [List.cons_append] at h
      obtain ⟨rfl, htail⟩ := List.cons.inj h
      rw [List.map_cons, List.mem_cons, or_iff_right hne, ih htail]
      by_cases hopen : c = '{'
      · subst hopen
        rw [not_inBraces_of_token? (htail ▸ hno)]
      · rw [inBraces_cons hopen]

end Places

section Segments

variable {before rest tail : List Char}

theorem startsSegment_iff :
    StartsSegment before ↔ Text.afterLast (· == '/') before = [] := by
  rw [Text.afterLast_eq_nil_iff, StartsSegment]
  simp only [beq_iff_eq]

theorem segmentAround_mem_pathSegments {path : String} (h : path.toList = before ++ rest)
    {c : Char} (hc : rest.head? = some c) (hslash : c ≠ '/') :
    segmentAround before rest ∈ Naming.pathSegments path := by
  obtain ⟨rest, rfl⟩ := List.head?_eq_some_iff.1 hc
  rw [Naming.pathSegments, List.mem_filter, h]
  refine ⟨Text.around_mem_splitOnP before (c :: rest), ?_⟩
  simp [segmentAround, hslash]

theorem segmentParameter?_iff {start : List Char} (htail : ∀ c ∈ tail.head?, isNameChar c = true) :
    Naming.segmentParameter? (start ++ ':' :: tail) = some tail ↔ start = [] := by
  constructor
  · intro h
    cases start with
    | nil => rfl
    | cons c start =>
      rw [List.cons_append, Naming.segmentParameter?] at h
      split at h
      · next hbraces =>
        have hlength := congrArg List.length (Option.some.inj h)
        cases tail with
        | nil => simp at hbraces
        | cons d tail =>
          simp only [List.length_dropLast, List.length_append, List.length_cons] at hlength
          obtain rfl : start = [] := List.eq_nil_of_length_eq_zero (by omega)
          obtain ⟨rfl, -⟩ := List.cons.inj (Option.some.inj h)
          exact absurd (htail ':' rfl) (by decide)
      · split at h
        · have hlength := congrArg List.length (Option.some.inj h)
          rw [List.length_append, List.length_cons] at hlength
          omega
        · cases h
  · rintro rfl
    rfl

end Segments

section Tokens

variable {path before rest name after : List Char}

theorem HasTokenAt.isToken (h : HasTokenAt path before rest name) :
    ∃ after, IsToken rest name after := by
  obtain ⟨-, after, hafter⟩ := mem_placedPieces_token.1 h.2
  exact ⟨after, .of_token? hafter⟩

theorem IsToken.exists_nameChar (h : IsToken (':' :: rest) name after) :
    rest = name ++ after ∧ ∃ c more, rest = c :: more ∧ isNameChar c = true := by
  cases h with
  | colon hne hname _ =>
    obtain ⟨c, more, rfl⟩ := List.exists_cons_of_ne_nil hne
    exact ⟨rfl, c, more ++ after, rfl, hname c List.mem_cons_self⟩

theorem exists_hasTokenAt_iff {c : Char} (h : path = before ++ ':' :: c :: rest)
    (hc : isNameChar c = true) :
    (∃ name, HasTokenAt path before (':' :: c :: rest) name) ↔ ¬ InBraces before (c :: rest) := by
  rw [← mem_places_iff h]
  constructor
  · rintro ⟨name, htoken⟩
    exact (mem_placedPieces_token.1 htoken.2).1
  · intro hplace
    have htoken : token? (':' :: c :: rest) =
        some ((c :: rest).takeWhile isNameChar, (c :: rest).dropWhile isNameChar) := by
      rw [token?, if_pos rfl, if_neg (by simp [hc])]
    exact ⟨_, h, mem_placedPieces_token.2 ⟨hplace, _, htoken⟩⟩

theorem HasTokenAt.isVariable_iff (h : HasTokenAt path before (':' :: rest) name) :
    IsVariable before (':' :: rest) name ↔ StartsSegment before := by
  constructor
  · rintro ⟨⟩
    assumption
  · intro hstart
    obtain ⟨after, htoken⟩ := h.isToken
    rw [htoken.exists_nameChar.1]
    exact .segment hstart

end Tokens

/-- Every token of a path is a variable in one of the two forms exactly if the colons in front of
names that stand outside of braces start segments. A colon that begins a token starts its segment
exactly if the function name takes what follows it in the segment for a parameter. -/
theorem tokens_documented_iff (path : String) :
    (placedPieces path.toList).map Prod.snd = pieces path.toList ∧
    ((∀ before rest name, HasTokenAt path.toList before rest name → IsVariable before rest name) ↔
      ColonsStartSegments path.toList) ∧
    ∀ before rest name, HasTokenAt path.toList before (':' :: rest) name →
      segmentAround before (':' :: rest) ∈ Naming.pathSegments path ∧
      (IsVariable before (':' :: rest) name ↔
        Naming.segmentParameter? (segmentAround before (':' :: rest)) =
          some (rest.takeWhile (· != '/'))) := by
  refine ⟨map_snd_placedPieces _, ⟨fun hall => ?_, fun hcolons => ?_⟩, ?_⟩
  · intro before c after hpath hc
    refine or_iff_not_imp_right.2 fun houtside => ?_
    obtain ⟨name, htoken⟩ := (exists_hasTokenAt_iff hpath hc).2 houtside
    exact htoken.isVariable_iff.1 (hall _ _ _ htoken)
  · intro before rest name htoken
    obtain ⟨after, hafter⟩ := htoken.isToken
    cases hafter with
    | braces _ hname => exact .braces hname
    | colon hne hname _ =>
      obtain ⟨c, name, rfl⟩ := List.exists_cons_of_ne_nil hne
      have hc := hname c List.mem_cons_self
      obtain hstart | hinside := hcolons before c (name ++ after) htoken.1 hc
      · exact .segment hstart
      · exact absurd hinside ((exists_hasTokenAt_iff htoken.1 hc).1 ⟨_, htoken⟩)
  · intro before rest name htoken
    obtain ⟨after, hafter⟩ := htoken.isToken
    obtain ⟨-, c, more, rfl, hc⟩ := hafter.exists_nameChar
    have hslash : c ≠ '/' := by
      rintro rfl
      exact absurd hc (by decide)
    refine ⟨segmentAround_mem_pathSegments htoken.1 rfl (by decide), ?_⟩
    have haround : segmentAround before (':' :: c :: more) =
        Text.afterLast (· == '/') before ++ ':' :: (c :: more).takeWhile (· != '/') := rfl
    rw [htoken.isVariable_iff, startsSegment_iff, haround, segmentParameter?_iff]
    simp [hslash, hc]

theorem not_tokens_documented : ¬ ∀ path before rest name : List Char,
    HasTokenAt path before rest name → IsVariable before rest name := by
  intro documented
  have htoken : HasTokenAt "/pets/{id}:cancel".toList "/pets/{id}".toList ":cancel".toList
      "cancel".toList := ⟨by decide, by decide +kernel⟩
  have hstart := htoken.isVariable_iff.1 (documented _ _ _ _ htoken)
  exact absurd (hstart '}' (by decide)) (by decide)

end Path

end ApiClient
