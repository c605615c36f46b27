import ApiClient.Proofs.TypeNames

namespace ApiClient

namespace Text

section Cuts

def argumentMark : List Char := [']', ',', '[']

theorem splitAtMark_ne_nil (mark cs : List Char) : splitAtMark mark cs ≠ [] := by
  fun_induction splitAtMark mark cs with
  | case1 => exact List.cons_ne_nil _ _
  | case2 => exact List.cons_ne_nil _ _
  | case3 c rest hmark ih => exact mt List.modifyHead_eq_nil_iff.1 ih

theorem splitAtMark_nil (mark : List Char) : splitAtMark mark [] = [[]] := by
  rw [splitAtMark]

theorem splitAtMark_append_self {mark : List Char} (hne : mark ≠ []) (rest : List Char) :
    splitAtMark mark (mark ++ rest) = [] :: splitAtMark mark rest := by
  obtain ⟨c, mark, rfl⟩ := List.exists_cons_of_ne_nil hne
  have hstart : (c :: mark).isPrefixOf (c :: (mark ++ rest)) = true := by
    simp [List.isPrefixOf_iff_prefix]
  rw [List.cons_append, splitAtMark, if_pos hstart]
  simp

theorem splitAtMark_cons {mark : List Char} {c : Char} {rest : List Char}
    (h : ¬ mark <+: c :: rest) :
    splitAtMark mark (c :: rest) = (splitAtMark mark rest).modifyHead (c :: ·) := by
  rw [splitAtMark, if_neg (by rwa [List.isPrefixOf_iff_prefix])]

/-- No part of the mark is both its start and its end, so a mark is found wherever it is put. -/
theorem splitAtMark_append_argumentMark (x y : List Char) :
    splitAtMark argumentMark (x ++ (argumentMark ++ y)) =
      splitAtMark argumentMark x ++ splitAtMark argumentMark y := by
  have hne : argumentMark ≠ [] := List.cons_ne_nil _ _
  induction x using scan_induction hne with
  | nil => rw [List.nil_append, splitAtMark_append_self hne, splitAtMark_nil, List.singleton_append]
  | hit rest ih =>
    rw [List.append_assoc, splitAtMark_append_self hne, splitAtMark_append_self hne, ih,
      List.cons_append]
  | skip c rest hskip ih =>
    have hstill : ¬ argumentMark <+: c :: (rest ++ (argumentMark ++ y)) := by
      match rest with
      | [] => simp [argumentMark, List.cons_prefix_cons]
      | [d] => simp [argumentMark, List.cons_prefix_cons]
      | d :: e :: rest => simpa [argumentMark, List.cons_prefix_cons] using hskip
    obtain ⟨first, others, hpieces⟩ :=
      List.exists_cons_of_ne_nil (splitAtMark_ne_nil argumentMark rest)
    rw [List.cons_append, splitAtMark_cons hstill, ih, splitAtMark_cons hskip, hpieces]
    rfl

theorem splitAtMark_of_notMem {cs : List Char} (h : '[' ∉ cs) :
    splitAtMark argumentMark cs = [cs] := by
  induction cs with
  | nil => exact splitAtMark_nil _
  | cons c rest ih =>
    have hskip : ¬ argumentMark <+: c :: rest := fun hmark => h (hmark.subset (by decide))
    rw [splitAtMark_cons hskip, ih fun hmem => h (List.mem_cons_of_mem c hmem)]
    rfl

theorem splitAtMark_append_of_notMem {before : List Char} (h : ']' ∉ before) {x piece : List Char}
    {pieces : List (List Char)} (hx : splitAtMark argumentMark x = piece :: pieces) :
    splitAtMark argumentMark (before ++ x) = (before ++ piece) :: pieces := by
  induction before with
  | nil => exact hx
  | cons c before ih =>
    rw [List.mem_cons, not_or] at h
    have hskip : ¬ argumentMark <+: c :: (before ++ x) := by
      simp [argumentMark, List.cons_prefix_cons, h.1]
    rw [List.cons_append, splitAtMark_cons hskip, ih h.2]
    rfl

theorem breakAtMark_append {before : List Char} (h : '[' ∉ before) (after : List Char) :
    breakAtMark ['[', '['] (before ++ '[' :: '[' :: after) = some (before, after) := by
  induction before with
  | nil => simp [breakAtMark]
  | cons c before ih =>
    rw [List.mem_cons, not_or] at h
    have hskip : ¬ ['[', '['].isPrefixOf (c :: (before ++ '[' :: '[' :: after)) = true := by
      simp [h.1]
    rw [List.cons_append, breakAtMark, if_neg hskip, ih h.2]
    rfl

end Cuts

section Trims

variable {c : Char} (hc : isBlank c = false)

include hc in
theorem trimStart_append_cons (before after : List Char) :
    trimStart (before ++ c :: after) = trimStart before ++ c :: after := by
  rw [trimStart, trimStart, List.dropWhile_append]
  split
  · next hnil => rw [List.isEmpty_iff.1 hnil, List.dropWhile_cons_of_neg (by simp [hc])]; rfl
  · rfl

include hc in
theorem trimEnd_append_cons (before after : List Char) :
    trimEnd (before ++ c :: after) = before ++ c :: trimEnd after := by
  have hstart := trimStart_append_cons hc after.reverse before.reverse
  rw [trimStart, trimStart] at hstart
  simp [trimEnd, hstart]

theorem prefix_trimEnd (cs : List Char) : trimEnd cs <+: cs :=
  List.rdropWhile_prefix isBlank cs

end Trims

end Text

namespace Naming

open Text

theorem prefix_dropEnd (mark cs : List Char) : dropEnd mark cs <+: cs := by
  rw [dropEnd]
  split
  · exact List.take_prefix _ _
  · exact List.prefix_refl cs

theorem dropEnd_append {mark x y : List Char} (h : ∀ a, a <:+ x → mark = a ++ y → a = []) :
    dropEnd mark (x ++ y) = x ++ dropEnd mark y := by
  have hsuffix : mark <:+ x ++ y ↔ mark <:+ y := by
    constructor
    · rintro ⟨t, ht⟩
      obtain ⟨a, hx, hmark⟩ | ⟨b, -, hy⟩ := List.append_eq_append_iff.1 ht
      · obtain rfl := h a ⟨t, hx.symm⟩ hmark
        rw [hmark]
        exact List.suffix_refl y
      · exact ⟨b, hy.symm⟩
    · exact fun hmark => hmark.trans (List.suffix_append x y)
  have hsame : mark.isSuffixOf (x ++ y) = mark.isSuffixOf y := by
    rw [Bool.eq_iff_iff, List.isSuffixOf_iff_suffix, List.isSuffixOf_iff_suffix, hsuffix]
  rw [dropEnd, dropEnd, hsame]
  split
  · next hmark =>
    have hle := (List.isSuffixOf_iff_suffix.1 hmark).length_le
    rw [List.length_append, Nat.add_sub_assoc hle, List.take_length_add_append]
  · rfl

structure BareName where
  first : Char
  rest : List Char
  isAlpha : first.isAlpha = true
  isAlphanum : ∀ c ∈ rest, c.isAlphanum = true

def BareName.chars (n : BareName) : List Char :=
  n.first :: n.rest

structure Qualifier where
  chars : List Char
  plain : ∀ c ∈ chars, c ≠ '[' ∧ c ≠ ']' ∧ c ≠ ','

/-- An assembly, its version and the like, in any text without brackets and public key tokens. -/
structure AssemblyPart where
  chars : List Char
  noOpen : '[' ∉ chars
  noClose : ']' ∉ chars
  noToken : ¬ "PublicKeyToken".toList <:+: chars

/-- A type in qualified form with its arguments, and the parts that follow it behind commas. -/
inductive GenericType where
  | mk (qualifiers : List Qualifier) (name : BareName) (arguments : List GenericType)
      (assembly : List AssemblyPart)

namespace GenericType

def arguments : GenericType → List GenericType
  | ⟨_, _, arguments, _⟩ => arguments

def pathText (qualifiers : List Qualifier) : List Char :=
  qualifiers.flatMap fun q => q.chars ++ ['.']

def assemblyText (assembly : List AssemblyPart) : List Char :=
  assembly.flatMap fun part => ',' :: part.chars

def bracketed (cs : List Char) : List Char :=
  '[' :: (cs ++ [']'])

def argumentsText (texts : List (List Char)) : List Char :=
  if texts.isEmpty then []
  else
    '\x60' :: (toString texts.length).toList ++
      bracketed ([','].intercalate (texts.map bracketed))

mutual

/-- A type as it is written, ``Ns.Outer`2[[Ns.First, Assembly],[Second]]``. -/
def text : GenericType → List Char
  | ⟨qualifiers, name, arguments, assembly⟩ =>
    pathText qualifiers ++ name.chars ++ argumentsText (texts arguments) ++ assemblyText assembly

def texts : List GenericType → List (List Char)
  | [] => []
  | t :: rest => t.text :: texts rest

end

mutual

def names : GenericType → List BareName
  | ⟨_, name, arguments, _⟩ => name :: namesOf arguments

def namesOf : List GenericType → List BareName
  | [] => []
  | t :: rest => t.names ++ namesOf rest

end

end GenericType

structure IsPath (cs : List Char) : Prop where
  dot : cs = [] ∨ ∃ before, cs = before ++ ['.']
  plain : ∀ c ∈ cs, c ≠ '[' ∧ c ≠ ']' ∧ c ≠ ','

/-- What may stand behind the last name of a piece: brackets that close, and parts behind commas. -/
structure IsClosing (cs : List Char) : Prop where
  noOpen : '[' ∉ cs
  start : ∀ c ∈ cs.takeWhile (· != ','), c = ']'
  noToken : ¬ "PublicKeyToken".toList <:+: cs

/-- How a piece begins: a type, or a generic and how its first argument begins. -/
inductive IsOpening : List Char → List BareName → Prop where
  | last {path : List Char} (hpath : IsPath path) (name : BareName) :
      IsOpening (path ++ name.chars) [name]
  | nest {path opening : List Char} {names : List BareName} (hpath : IsPath path) (name : BareName)
      (count : Nat) (h : IsOpening opening names) :
      IsOpening (path ++ name.chars ++ '\x60' :: ((toString count).toList ++ '[' :: '[' :: opening))
        (name :: names)

def IsPiece (piece : List Char) (names : List BareName) : Prop :=
  ∃ opening closing, piece = opening ++ closing ∧ IsOpening opening names ∧ IsClosing closing

section Closings

theorem IsClosing.nil : IsClosing [] :=
  ⟨List.not_mem_nil, by simp, by simp⟩

theorem IsClosing.bracket {cs : List Char} (h : IsClosing cs) : IsClosing (']' :: cs) where
  noOpen := by simp [h.noOpen]
  start := by
    intro c hc
    rw [List.takeWhile_cons_of_pos (by decide)] at hc
    exact (List.mem_cons.1 hc).elim id (h.start c)
  noToken := by
    rw [List.infix_cons_iff, not_or]
    exact ⟨by simp [List.cons_prefix_cons], h.noToken⟩

theorem IsClosing.head {c : Char} {cs : List Char} (h : IsClosing (c :: cs)) :
    c = ']' ∨ c = ',' := by
  by_cases hc : c = ','
  · exact .inr hc
  · left
    apply h.start
    rw [List.takeWhile_cons_of_pos (by simpa using hc)]
    exact List.mem_cons_self

theorem IsClosing.part {cs : List Char} (h : IsClosing cs) (part : AssemblyPart) :
    IsClosing (',' :: part.chars ++ cs) where
  noOpen := by simp [h.noOpen, part.noOpen]
  start := by simp
  noToken := by
    rw [List.infix_append_iff, List.infix_cons_iff]
    rintro ((hstart | hpart) | hcs | ⟨before, after, htoken, hbefore, hafter⟩)
    · simp [List.cons_prefix_cons] at hstart
    · exact part.noToken hpart
    · exact h.noToken hcs
    · cases after with
      | nil =>
        rw [List.append_nil] at htoken
        have hpart := htoken ▸ hbefore.isInfix
        rw [List.infix_cons_iff] at hpart
        obtain hstart | hpart := hpart
        · simp [List.cons_prefix_cons] at hstart
        · exact part.noToken hpart
      | cons c after =>
        have hc : c ∈ "PublicKeyToken".toList := htoken ▸ by simp
        obtain ⟨rest, rfl⟩ := hafter
        obtain rfl | rfl := h.head
        · exact absurd hc (by decide)
        · exact absurd hc (by decide)

theorem IsClosing.assembly {cs : List Char} (h : IsClosing cs) (assembly : List AssemblyPart) :
    IsClosing (GenericType.assemblyText assembly ++ cs) := by
  induction assembly with
  | nil => exact h
  | cons part rest ih =>
    rw [GenericType.assemblyText, List.flatMap_cons, List.append_assoc]
    exact ih.part part

theorem IsClosing.of_prefix {cs start : List Char} (h : IsClosing cs) (hstart : start <+: cs) :
    IsClosing start where
  noOpen := fun hmem => h.noOpen (hstart.subset hmem)
  start := by
    intro c hc
    obtain ⟨rest, rfl⟩ := hstart
    apply h.start
    rw [List.takeWhile_append]
    split
    · exact List.mem_append_left _ (List.takeWhile_subset _ hc)
    · exact hc
  noToken := fun htoken => h.noToken (htoken.trans hstart.isInfix)

end Closings

section Openings

theorem BareName.isAlphanum_chars (n : BareName) : ∀ c ∈ n.chars, c.isAlphanum = true := by
  have hfirst : n.first.isAlphanum = true := by simp [Char.isAlphanum, n.isAlpha]
  exact List.forall_mem_cons.2 ⟨hfirst, n.isAlphanum⟩

theorem BareName.notMem {c : Char} (h : c.isAlphanum = false) (n : BareName) : c ∉ n.chars := by
  intro hc
  rw [n.isAlphanum_chars c hc] at h
  cases h

theorem isBlank_of_isAlphanum {c : Char} (h : c.isAlphanum = true) : isBlank c = false :=
  isBlank_eq_false (by simp [isWord, h])

theorem isPath_pathText (qualifiers : List Qualifier) :
    IsPath (GenericType.pathText qualifiers) := by
  constructor
  · induction qualifiers using List.reverseRecOn with
    | nil => exact .inl rfl
    | append_singleton qualifiers q _ =>
      right
      exact ⟨GenericType.pathText qualifiers ++ q.chars, by simp [GenericType.pathText]⟩
  · intro c hc
    obtain ⟨q, -, hc⟩ := List.mem_flatMap.1 hc
    obtain hc | hc := List.mem_append.1 hc
    · exact q.plain c hc
    · rw [List.mem_singleton.1 hc]
      decide

theorem IsPath.trimStart {path : List Char} (h : IsPath path) : IsPath (trimStart path) where
  dot := by
    obtain rfl | ⟨before, rfl⟩ := h.dot
    · exact .inl rfl
    · exact .inr ⟨Text.trimStart before, trimStart_append_cons (by decide) before []⟩
  plain := fun c hc => h.plain c ((List.dropWhile_sublist isBlank).subset hc)

theorem lastSegment_path {path : List Char} (h : IsPath path) {cs : List Char}
    (hcs : ∀ c ∈ cs, c ≠ '/' ∧ c ≠ '.') : lastSegment (path ++ cs) = trim cs := by
  have hkept : ∀ c ∈ cs, (c == '/' || c == '.') = false := by
    intro c hc
    simpa using hcs c hc
  rw [lastSegment]
  obtain rfl | ⟨before, rfl⟩ := h.dot
  · rw [List.nil_append, afterLast_of_none hkept]
  · rw [List.append_assoc, List.singleton_append, afterLast_append_mark (by decide) hkept]

theorem joinSeparated_of_none {cs : List Char} (h : ∀ c ∈ cs, isSeparator c = false) :
    joinSeparated cs = cs := by
  fun_induction joinSeparated cs with
  | case1 => rfl
  | case2 => rfl
  | case3 c next rest hjoin ih =>
    rw [Bool.and_eq_true, h c List.mem_cons_self] at hjoin
    cases hjoin.1
  | case4 c next rest hjoin ih => rw [ih fun d hd => h d (List.mem_cons_of_mem c hd)]

theorem normalize_name (n : BareName) {brackets : List Char} (h : ∀ c ∈ brackets, c = ']') :
    normalize (n.chars ++ brackets) = n.chars := by
  have hseparator : ∀ c ∈ n.chars ++ brackets, isSeparator c = false := by
    intro c hc
    obtain hc | hc := List.mem_append.1 hc
    · have halnum := n.isAlphanum_chars c hc
      rw [← Bool.not_eq_true]
      simp only [isSeparator, Bool.or_eq_true, beq_iff_eq]
      rintro ((rfl | rfl) | rfl) <;> exact absurd halnum (by decide)
    · rw [h c hc]
      decide
  have hname : ∀ c ∈ n.chars, (isWord c || isIdeograph c) = true := fun c hc => by
    simp [isWord, n.isAlphanum_chars c hc]
  have hbrackets : ∀ c ∈ brackets, ¬ (isWord c || isIdeograph c) = true := fun c hc => by
    rw [h c hc]
    decide
  rw [normalize, joinSeparated_of_none hseparator, List.filter_append, List.filter_eq_self.2 hname,
    List.filter_eq_nil_iff.2 hbrackets, List.append_nil]

theorem BareName.exists_concat (n : BareName) :
    ∃ before c, n.chars = before ++ [c] ∧ isBlank c = false := by
  obtain ⟨before, c, hname⟩ : ∃ before c, n.chars = before ++ [c] :=
    (List.eq_nil_or_concat' n.chars).resolve_left (List.cons_ne_nil _ _)
  exact ⟨before, c, hname, isBlank_of_isAlphanum (n.isAlphanum_chars c (by simp [hname]))⟩

theorem trimStart_path (path : List Char) (n : BareName) (rest : List Char) :
    trimStart (path ++ n.chars ++ rest) = trimStart path ++ n.chars ++ rest := by
  have hfirst : isBlank n.first = false :=
    isBlank_of_isAlphanum (n.isAlphanum_chars n.first List.mem_cons_self)
  rw [List.append_assoc, List.append_assoc, BareName.chars, List.cons_append,
    trimStart_append_cons hfirst]

theorem trim_path (path : List Char) (n : BareName) (rest : List Char) :
    trim (path ++ n.chars ++ rest) = trimStart path ++ n.chars ++ trimEnd rest := by
  obtain ⟨before, c, hname, hc⟩ := n.exists_concat
  rw [trim, trimStart_path, hname, List.append_assoc, List.append_assoc, List.singleton_append,
    ← List.append_assoc, trimEnd_append_cons hc]
  simp

theorem trim_name (n : BareName) (rest : List Char) :
    trim (n.chars ++ rest) = n.chars ++ trimEnd rest :=
  trim_path [] n rest

theorem IsOpening.notMem {opening : List Char} {names : List BareName}
    (h : IsOpening opening names) : ']' ∉ opening := by
  induction h with
  | last hpath name =>
    rw [List.mem_append, not_or]
    exact ⟨fun hc => (hpath.plain _ hc).2.1 rfl, name.notMem (by decide)⟩
  | nest hpath name count _ ih =>
    simp only [List.mem_append, List.mem_cons, not_or]
    exact ⟨⟨fun hc => (hpath.plain _ hc).2.1 rfl, name.notMem (by decide)⟩, by decide,
      notMem_toString (by decide) count, by decide, by decide, ih⟩

theorem IsOpening.trimStart {opening : List Char} {names : List BareName}
    (h : IsOpening opening names) : IsOpening (trimStart opening) names := by
  cases h with
  | @last path hpath name =>
    have hlast := trimStart_path path name []
    rw [List.append_nil, List.append_nil] at hlast
    rw [hlast]
    exact .last hpath.trimStart name
  | nest hpath name count hrest =>
    rw [trimStart_path]
    exact .nest hpath.trimStart name count hrest

theorem IsOpening.exists_concat {opening : List Char} {names : List BareName}
    (h : IsOpening opening names) : ∃ before c, opening = before ++ [c] ∧ isBlank c = false := by
  induction h with
  | @last path hpath name =>
    obtain ⟨before, c, hname, hc⟩ := name.exists_concat
    exact ⟨path ++ before, c, by rw [hname, List.append_assoc], hc⟩
  | @nest path _ _ hpath name count _ ih =>
    obtain ⟨before, c, rfl, hc⟩ := ih
    exact ⟨path ++ name.chars ++ '\x60' :: ((toString count).toList ++ '[' :: '[' :: before), c,
      by simp, hc⟩

theorem IsOpening.trim_append {opening : List Char} {names : List BareName}
    (h : IsOpening opening names) (closing : List Char) :
    trim (opening ++ closing) = Text.trimStart opening ++ trimEnd closing := by
  obtain ⟨before, c, rfl, hc⟩ := h.exists_concat
  rw [trim, List.append_assoc, List.singleton_append, trimStart_append_cons hc,
    trimEnd_append_cons hc, trimStart_append_cons hc, List.append_assoc]
  rfl

end Openings

section Plain

variable {path closing : List Char}

theorem keyToken?_eq_none {parts : List (List Char)}
    (h : ∀ part ∈ parts, ¬ "PublicKeyToken".toList <:+: part) : keyToken? parts = none := by
  rw [keyToken?, Option.bind_eq_none_iff]
  intro token htoken
  obtain ⟨part, hpart, hfound⟩ := List.exists_of_findSome?_eq_some htoken
  have hprefix : "PublicKeyToken=".toList <+: part := by
    rw [← List.isPrefixOf_iff_prefix, ← List.isSome_isPrefixOf?_eq_isPrefixOf, hfound,
      Option.isSome_some]
  refine absurd ?_ (h part hpart)
  exact (List.IsPrefix.trans ⟨['='], rfl⟩ hprefix).isInfix

theorem infix_trim (cs : List Char) : trim cs <:+: cs :=
  (prefix_trimEnd _).isInfix.trans (List.dropWhile_suffix isBlank).isInfix

theorem IsClosing.exists_brackets (h : IsClosing closing) : ∃ brackets rest,
    closing = brackets ++ rest ∧ (∀ c ∈ brackets, c = ']') ∧
      (rest = [] ∨ ∃ more, rest = ',' :: more) := by
  refine ⟨closing.takeWhile (· != ','), closing.dropWhile (· != ','),
    List.takeWhile_append_dropWhile.symm, h.start, ?_⟩
  cases hrest : closing.dropWhile (· != ',') with
  | nil => exact .inl rfl
  | cons c more =>
    have hc : (c != ',') = false := by
      simpa [hrest] using List.head?_dropWhile_not (· != ',') closing
    exact .inr ⟨more, by simpa using hc⟩

theorem exists_nameParts_piece (hpath : IsPath path) (n : BareName) (hclosing : IsClosing closing) :
    ∃ brackets parts, (∀ c ∈ brackets, c = ']') ∧
      nameParts (path ++ n.chars ++ closing) = trim (path ++ n.chars ++ brackets) :: parts ∧
      ∀ part ∈ parts, part <:+: closing := by
  obtain ⟨brackets, rest, rfl, hbrackets, hrest⟩ := hclosing.exists_brackets
  have hcomma : ∀ c ∈ path ++ n.chars ++ brackets, (c == ',') = false := by
    apply beq_eq_false
    simp only [List.mem_append, not_or]
    refine ⟨⟨fun hc => (hpath.plain _ hc).2.2 rfl, n.notMem (by decide)⟩, fun hc => ?_⟩
    exact absurd (hbrackets _ hc) (by decide)
  obtain rfl | ⟨more, rfl⟩ := hrest
  · refine ⟨brackets, [], hbrackets, ?_, by simp⟩
    rw [nameParts, List.append_nil, List.splitOnP_eq_singleton hcomma]
    rfl
  · refine ⟨brackets, (more.splitOnP (· == ',')).map trim, hbrackets, ?_, ?_⟩
    · rw [nameParts, ← List.append_assoc,
        List.splitOnP_append_cons_of_forall_mem hcomma _ (by decide)]
      rfl
    · rw [List.forall_mem_map]
      intro part hpart
      have hmore : more <:+: brackets ++ ',' :: more := ⟨brackets ++ [','], [], by simp⟩
      exact (infix_trim part).trans ((infix_of_mem_splitOnP hpart).trans hmore)

theorem plainName_piece (hpath : IsPath path) (n : BareName) (hclosing : IsClosing closing) :
    plainName (path ++ n.chars ++ closing) = n.chars := by
  obtain ⟨brackets, parts, hbrackets, hparts, hwithin⟩ := exists_nameParts_piece hpath n hclosing
  have htrimmed : ∀ c ∈ trimEnd brackets, c = ']' :=
    fun c hc => hbrackets c ((prefix_trimEnd brackets).subset hc)
  have hcut : ∀ c ∈ n.chars ++ trimEnd brackets, c ≠ '/' ∧ c ≠ '.' := by
    intro c hc
    constructor <;> rintro rfl <;> obtain hc | hc := List.mem_append.1 hc
    · exact n.notMem (by decide) hc
    · exact absurd (htrimmed _ hc) (by decide)
    · exact n.notMem (by decide) hc
    · exact absurd (htrimmed _ hc) (by decide)
  have hname : normalize (lastSegment (trim (path ++ n.chars ++ brackets))) = n.chars := by
    rw [trim_path, List.append_assoc, lastSegment_path hpath.trimStart hcut, trim_name]
    exact normalize_name n fun c hc => htrimmed c ((prefix_trimEnd _).subset hc)
  have htoken : keyToken? parts = none :=
    keyToken?_eq_none fun part hpart htoken => hclosing.noToken (htoken.trans (hwithin part hpart))
  rw [plainName_of_parts hparts, hname, htoken]
  simp [BareName.chars]

end Plain

section Pieces

variable [Transliteration] {path opening closing inner piece : List Char} {names : List BareName}

omit [Transliteration] in
theorem genericParts_of_opening (hpath : IsPath path) (n : BareName) (count : Nat)
    (inner : List Char) :
    genericParts? (path ++ n.chars ++ '\x60' :: ((toString count).toList ++ '[' :: '[' :: inner)) =
      some (n.chars, ((splitAtMark argumentMark (dropEnd [']', ']'] inner)).map trim).filter
        (!·.isEmpty)) := by
  have hopen : '[' ∉ path ++ n.chars ++ '\x60' :: (toString count).toList := by
    simp only [List.mem_append, List.mem_cons, not_or]
    exact ⟨⟨fun hc => (hpath.plain _ hc).1 rfl, n.notMem (by decide)⟩, by decide,
      notMem_toString (by decide) count⟩
  have hcut : ∀ c ∈ n.chars ++ '\x60' :: (toString count).toList, c ≠ '/' ∧ c ≠ '.' := by
    intro c hc
    simp only [List.mem_append, List.mem_cons] at hc
    constructor <;> rintro rfl
    · exact hc.elim (n.notMem (by decide)) fun hc => hc.elim (by decide)
        (notMem_toString (by decide) count)
    · exact hc.elim (n.notMem (by decide)) fun hc => hc.elim (by decide)
        (notMem_toString (by decide) count)
  have houter : normalize ((lastSegment (path ++ n.chars ++
      '\x60' :: (toString count).toList)).takeWhile (· != '\x60')) = n.chars := by
    have hname : ∀ c ∈ n.chars, (c != '\x60') = true := by
      intro c hc
      rw [bne_iff_ne]
      rintro rfl
      exact n.notMem (by decide) hc
    have hquote : trimEnd ('\x60' :: (toString count).toList) =
        '\x60' :: trimEnd (toString count).toList :=
      trimEnd_append_cons (by decide) [] _
    rw [List.append_assoc, lastSegment_path hpath hcut, trim_name, hquote,
      List.takeWhile_append_of_pos hname, List.takeWhile_cons_of_neg (by decide)]
    exact normalize_name n fun _ hc => absurd hc List.not_mem_nil
  have hbreak := breakAtMark_append hopen inner
  rw [List.append_assoc, List.cons_append] at hbreak
  rw [genericParts?, hbreak, Option.map_some]
  dsimp only
  rw [houter]
  rfl

/-- The names of a generic, joined. -/
def joined (names : List BareName) : List Char :=
  ['_'].intercalate (names.map BareName.chars)

omit [Transliteration] in
theorem intercalate_cons (mark : Char) (first : List Char) (rest : List (List Char)) :
    [mark].intercalate (first :: rest) = first ++ rest.flatMap (mark :: ·) := by
  induction rest generalizing first with
  | nil => simp
  | cons next rest ih => rw [List.intercalate_cons_cons, ih]; simp

omit [Transliteration] in
theorem joined_cons (n : BareName) (names : List BareName) :
    joined (n :: names) = n.chars ++ names.flatMap fun name => '_' :: name.chars := by
  rw [joined, List.map_cons, intercalate_cons, List.flatMap_map]

omit [Transliteration] in
theorem intercalate_joined (n : BareName) {nss : List (List BareName)} (h : ∀ ns ∈ nss, ns ≠ []) :
    ['_'].intercalate (n.chars :: nss.map joined) = joined (n :: nss.flatten) := by
  rw [intercalate_cons, joined_cons]
  congr 1
  induction nss with
  | nil => rfl
  | cons ns nss ih =>
    obtain ⟨hns, hnss⟩ := List.forall_mem_cons.1 h
    obtain ⟨name, names, rfl⟩ := List.exists_cons_of_ne_nil hns
    rw [List.map_cons, List.flatMap_cons, ih hnss, joined_cons, List.flatten_cons,
      List.flatMap_append, List.flatMap_cons]
    rfl

theorem identifier_joined (n : BareName) (names : List BareName) :
    identifier (joined (n :: names)) = joined (n :: names) := by
  have hstart : ∃ rest, joined (n :: names) = n.first :: rest := by
    rw [joined_cons, BareName.chars]
    exact ⟨_, rfl⟩
  have hword : ∀ c ∈ joined (n :: names), isWord c = true := by
    intro c hc
    obtain hc | ⟨part, hpart, hc⟩ := mem_intercalate hc
    · rw [List.mem_singleton.1 hc]
      decide
    · obtain ⟨name, -, rfl⟩ := List.mem_map.1 hpart
      simp [isWord, name.isAlphanum_chars c hc]
  have hdigit : n.first.isDigit = false :=
    forall_ascii (P := fun c => c.isAlpha = true → c.isDigit = false) (by decide +kernel)
      (toNat_lt_of_isAlphanum (n.isAlphanum_chars _ List.mem_cons_self)) n.isAlpha
  have hmark : n.first ≠ '_' := by
    rintro hmark
    exact absurd n.isAlpha (by rw [hmark]; decide)
  obtain ⟨rest, hrest⟩ := hstart
  rw [identifier_eq, spelt_of_isWord hword, hrest]
  simp [isUnusable, startsWithDigit, hdigit, hmark]

/-- A piece that names are read off. -/
def Reads (piece : List Char) (names : List BareName) : Prop :=
  names ≠ [] ∧ trim piece ≠ [] ∧ sanitize (trim piece) = joined names

theorem map_sanitize_pieces {pieces : List (List Char)} {nss : List (List BareName)}
    (h : List.Forall₂ Reads pieces nss) :
    ((pieces.map trim).filter (!·.isEmpty)).map sanitize = nss.map joined := by
  induction h with
  | nil => rfl
  | cons hreads _ ih =>
    obtain ⟨-, htrim, hname⟩ := hreads
    rw [List.map_cons, List.filter_cons_of_pos (by simpa using htrim), List.map_cons, hname, ih,
      List.map_cons]

theorem sanitize_of_opening (hpath : IsPath path) (n : BareName) (count : Nat)
    {nss : List (List BareName)}
    (h : List.Forall₂ Reads (splitAtMark argumentMark (dropEnd [']', ']'] inner)) nss) :
    sanitize (path ++ n.chars ++ '\x60' :: ((toString count).toList ++ '[' :: '[' :: inner)) =
      joined (n :: nss.flatten) := by
  have hne : ∀ ns ∈ nss, ns ≠ [] := by
    intro ns hns
    obtain ⟨piece, -, hreads⟩ := exists_of_forall₂ h hns
    exact hreads.1
  have hfilter : (n.chars :: nss.map joined).filter (!·.isEmpty) = n.chars :: nss.map joined := by
    rw [List.filter_eq_self, List.forall_mem_cons, List.forall_mem_map]
    refine ⟨rfl, fun ns hns => ?_⟩
    obtain ⟨name, names, rfl⟩ := List.exists_cons_of_ne_nil (hne ns hns)
    rw [joined_cons]
    rfl
  rw [sanitize_of_generic (genericParts_of_opening hpath n count inner), map_sanitize_pieces h,
    hfilter, intercalate_joined n hne, identifier_joined]

omit [Transliteration] in
theorem splitAtMark_piece (hopening : IsOpening opening names) (hclosing : IsClosing closing) :
    splitAtMark argumentMark (opening ++ closing) = [opening ++ closing] :=
  splitAtMark_append_of_notMem hopening.notMem (splitAtMark_of_notMem hclosing.noOpen)

omit [Transliteration] in
theorem dropEnd_piece (hopening : IsOpening opening names) (closing : List Char) :
    dropEnd [']', ']'] (opening ++ closing) = opening ++ dropEnd [']', ']'] closing := by
  apply dropEnd_append
  intro a ha hmark
  rw [List.eq_nil_iff_forall_not_mem]
  intro c hc
  have hclose : c ∈ [']', ']'] := hmark ▸ List.mem_append_left closing hc
  obtain rfl : c = ']' := by simpa using hclose
  exact hopening.notMem (ha.subset hc)

theorem sanitize_plain_piece (hpath : IsPath path) (n : BareName) (hclosing : IsClosing closing) :
    sanitize (path ++ n.chars ++ closing) = joined [n] := by
  have hopen : '[' ∉ path ++ n.chars ++ closing := by
    simp only [List.mem_append, not_or]
    exact ⟨⟨fun hc => (hpath.plain _ hc).1 rfl, n.notMem (by decide)⟩, hclosing.noOpen⟩
  have hplain : genericParts? (path ++ n.chars ++ closing) = none := by
    rw [genericParts?, Option.map_eq_none_iff, ← Option.not_isSome_iff_eq_none, isSome_breakAtMark]
    exact fun hmark => hopen (hmark.subset List.mem_cons_self)
  have hname : joined [n] = n.chars := List.intercalate_singleton
  rw [sanitize_of_plain hplain, plainName_piece hpath n hclosing, ← hname, identifier_joined]

/-- The names that a piece opens with are read off it, by induction on their number. -/
theorem reads_piece (hopening : IsOpening opening names) (hclosing : IsClosing closing) :
    Reads (opening ++ closing) names := by
  induction names generalizing opening closing with
  | nil => cases hopening
  | cons n names ih =>
    have hstart := hopening.trimStart
    have hend := hclosing.of_prefix (prefix_trimEnd closing)
    rw [Reads, hopening.trim_append]
    generalize trimStart opening = opening' at hstart
    generalize trimEnd closing = closing' at hend
    cases hstart with
    | last hpath =>
      exact ⟨List.cons_ne_nil _ _, by simp [BareName.chars], sanitize_plain_piece hpath n hend⟩
    | @nest path opening _ hpath _ count hrest =>
      have hdrop := hend.of_prefix (prefix_dropEnd [']', ']'] closing')
      have hinner : List.Forall₂ Reads
          (splitAtMark argumentMark (dropEnd [']', ']'] (opening ++ closing'))) [names] := by
        rw [dropEnd_piece hrest, splitAtMark_piece hrest hdrop]
        exact .cons (ih hrest hdrop) .nil
      have hname := sanitize_of_opening hpath n count hinner
      refine ⟨List.cons_ne_nil _ _, by simp [BareName.chars], ?_⟩
      simpa using hname

end Pieces

section Trees

variable {x y : List Char} {names more : List BareName}

/-- A text is cut into pieces with these names in order. -/
def IsCut (x : List Char) (names : List BareName) : Prop :=
  ∃ nss, List.Forall₂ IsPiece (splitAtMark argumentMark x) nss ∧ nss.flatten = names

theorem IsCut.append (hx : IsCut x names) (hy : IsCut y more) :
    IsCut (x ++ (argumentMark ++ y)) (names ++ more) := by
  obtain ⟨nss, hx, rfl⟩ := hx
  obtain ⟨mss, hy, rfl⟩ := hy
  refine ⟨nss ++ mss, ?_, List.flatten_append⟩
  rw [splitAtMark_append_argumentMark]
  exact List.rel_append hx hy

theorem IsCut.nest {path : List Char} (hpath : IsPath path) (n : BareName) (count : Nat)
    (h : IsCut x names) :
    IsCut (path ++ n.chars ++ '\x60' :: ((toString count).toList ++ '[' :: '[' :: x))
      (n :: names) := by
  obtain ⟨nss, hpieces, rfl⟩ := h
  have hclose : ']' ∉ path ++ n.chars ++ '\x60' :: ((toString count).toList ++ ['[', '[']) := by
    simp only [List.mem_append, List.mem_cons, not_or]
    exact ⟨⟨fun hc => (hpath.plain _ hc).2.1 rfl, n.notMem (by decide)⟩, by decide,
      notMem_toString (by decide) count, by decide, by decide, List.not_mem_nil⟩
  cases hx : splitAtMark argumentMark x with
  | nil => exact absurd hx (splitAtMark_ne_nil _ _)
  | cons piece pieces =>
    rw [hx] at hpieces
    obtain ⟨ns, mss, ⟨opening, closing, rfl, hopening, hclosing⟩, hrest, rfl⟩ :=
      List.forall₂_cons_left_iff.1 hpieces
    have hcut := splitAtMark_append_of_notMem hclose hx
    refine ⟨(n :: ns) :: mss, ?_, rfl⟩
    have htext : path ++ n.chars ++ '\x60' :: ((toString count).toList ++ '[' :: '[' :: x) =
        path ++ n.chars ++ '\x60' :: ((toString count).toList ++ ['[', '[']) ++ x := by simp
    rw [htext, hcut]
    exact .cons ⟨_, closing, by simp, hopening.nest hpath n count, hclosing⟩ hrest

theorem IsCut.last {path closing : List Char} (hpath : IsPath path) (n : BareName)
    (hclosing : IsClosing closing) : IsCut (path ++ n.chars ++ closing) [n] := by
  have hopening := IsOpening.last hpath n
  refine ⟨[[n]], ?_, rfl⟩
  rw [splitAtMark_piece hopening hclosing]
  exact .cons ⟨_, _, rfl, hopening, hclosing⟩ .nil

open GenericType

theorem length_texts (ts : List GenericType) : (texts ts).length = ts.length := by
  induction ts with
  | nil => rfl
  | cons t rest ih => rw [texts, List.length_cons, ih, List.length_cons]

theorem intercalate_bracketed (first : List Char) (rest : List (List Char)) :
    [','].intercalate ((first :: rest).map bracketed) =
      '[' :: (argumentMark.intercalate (first :: rest) ++ [']']) := by
  induction rest generalizing first with
  | nil => simp [bracketed]
  | cons next rest ih =>
    rw [List.map_cons, List.map_cons, List.intercalate_cons_cons, ← List.map_cons, ih,
      List.intercalate_cons_cons]
    simp [bracketed, argumentMark]

theorem argumentsText_cons (t : GenericType) (rest : List GenericType) :
    argumentsText (texts (t :: rest)) = '\x60' :: ((toString (rest.length + 1)).toList ++
      '[' :: '[' :: (argumentMark.intercalate (texts (t :: rest)) ++ [']', ']'])) := by
  have hlength := length_texts (t :: rest)
  rw [texts] at hlength ⊢
  rw [argumentsText, if_neg (by simp), hlength, intercalate_bracketed]
  simp [bracketed]

mutual

/-- With whatever closes a type behind it, its text is cut into pieces with its names in order. -/
theorem isCut_text : ∀ (t : GenericType) {closing : List Char}, IsClosing closing →
    IsCut (t.text ++ closing) t.names
  | ⟨qualifiers, name, [], assembly⟩, closing, hclosing => by
    have hcut := IsCut.last (isPath_pathText qualifiers) name (hclosing.assembly assembly)
    simpa [text, texts, argumentsText, GenericType.names, namesOf] using hcut
  | ⟨qualifiers, name, t :: rest, assembly⟩, closing, hclosing => by
    have hinner := isCut_texts (t :: rest) (List.cons_ne_nil _ _)
      (hclosing.assembly assembly).bracket.bracket
    have hcut := hinner.nest (isPath_pathText qualifiers) name (rest.length + 1)
    rw [text, argumentsText_cons, GenericType.names]
    simpa using hcut

theorem isCut_texts : ∀ (ts : List GenericType), ts ≠ [] → ∀ {closing : List Char},
    IsClosing closing → IsCut (argumentMark.intercalate (texts ts) ++ closing) (namesOf ts)
  | [], hne, _, _ => absurd rfl hne
  | [t], _, closing, hclosing => by
    have hcut := isCut_text t hclosing
    simpa [texts, namesOf] using hcut
  | t :: next :: rest, _, closing, hclosing => by
    have hfirst := isCut_text t IsClosing.nil
    have hrest := isCut_texts (next :: rest) (List.cons_ne_nil _ _) hclosing
    have hcut := hfirst.append hrest
    rw [List.append_nil] at hcut
    rw [texts, namesOf, texts, List.intercalate_cons_cons, ← texts]
    simpa using hcut

end

end Trees

theorem isReserved_text {t : GenericType} (h : t.arguments ≠ []) :
    isReserved (String.ofList t.text) = false := by
  apply isReserved_of_mem (c := '[') _ (by decide)
  obtain ⟨qualifiers, name, arguments, assembly⟩ := t
  cases arguments with
  | nil => exact absurd rfl h
  | cons t rest => simp [GenericType.text, argumentsText_cons]

variable [Transliteration]

theorem sanitize_text {t : GenericType} (h : t.arguments ≠ []) :
    sanitize t.text = joined t.names := by
  obtain ⟨qualifiers, name, arguments, assembly⟩ := t
  cases arguments with
  | nil => exact absurd rfl h
  | cons t rest =>
    have hclosing : IsClosing (']' :: ']' :: GenericType.assemblyText assembly) := by
      simpa using (IsClosing.nil.assembly assembly).bracket.bracket
    have hdrop := hclosing.of_prefix (prefix_dropEnd [']', ']'] _)
    obtain ⟨nss, hpieces, hnames⟩ := isCut_texts (t :: rest) (List.cons_ne_nil _ _) hdrop
    have hreads := hpieces.imp fun piece ns ⟨opening, closing, hpiece, hopening, hclosing⟩ =>
      hpiece ▸ reads_piece hopening hclosing
    have hbehind : ∀ a, a <:+ argumentMark.intercalate (GenericType.texts (t :: rest)) →
        [']', ']'] = a ++ ']' :: ']' :: GenericType.assemblyText assembly → a = [] := by
      intro a _ hmark
      have hlength := congrArg List.length hmark
      simp only [List.length_append, List.length_cons, List.length_nil] at hlength
      exact List.eq_nil_of_length_eq_zero (by omega)
    rw [← dropEnd_append hbehind] at hreads
    have hname := sanitize_of_opening (isPath_pathText qualifiers) name (rest.length + 1) hreads
    rw [hnames] at hname
    simpa [GenericType.text, GenericType.names, argumentsText_cons] using hname

/-- The type name of a generic type is made of the bare names in it, in preorder. -/
theorem typeName_text (t : GenericType) (h : t.arguments ≠ []) :
    typeName (String.ofList t.text) =
      "_".intercalate (t.names.map fun n => String.ofList n.chars) := by
  rw [typeName, isReserved_text h, if_neg Bool.false_ne_true, String.toList_ofList, sanitize_text h,
    ← String.toList_inj, String.toList_ofList, String.toList_intercalate, joined, List.map_map]
  simp [Function.comp_def]

end Naming

end ApiClient

namespace ApiClient.Naming

def pairType : GenericType :=
  let asm : AssemblyPart := ⟨" Asm".toList, by decide, by decide, by decide⟩
  let version : AssemblyPart := ⟨" Version=1.0".toList, by decide, by decide, by decide⟩
  let models : Qualifier := ⟨"Models".toList, by simp⟩
  let pet : GenericType :=
    ⟨[models], ⟨'P', "et".toList, rfl, List.all_eq_true.1 rfl⟩, [], [asm, version]⟩
  let key : GenericType := ⟨[], ⟨'K', "ey2".toList, rfl, List.all_eq_true.1 rfl⟩, [], []⟩
  ⟨[models, models], ⟨'P', "air".toList, rfl, List.all_eq_true.1 rfl⟩,
    [⟨[models], ⟨'M', "ap".toList, rfl, List.all_eq_true.1 rfl⟩, [key, pet], [asm]⟩, pet], []⟩

theorem typeName_text_pair : pairType.arguments ≠ [] ∧
    String.ofList pairType.text = "Models.Models.Pair`2[[Models.Map`2[[Key2],[Models.Pet, Asm," ++
      " Version=1.0]], Asm],[Models.Pet, Asm, Version=1.0]]" ∧
    typeName (String.ofList pairType.text) = "Pair_Map_Key2_Pet_Pet" := by
  have harguments : pairType.arguments ≠ [] := by decide
  have hnames : pairType.names.map (fun n => String.ofList n.chars) =
      ["Pair", "Map", "Key2", "Pet", "Pet"] := by decide
  refine ⟨harguments, by decide, ?_⟩
  rw [typeName_text pairType harguments, hnames]
  decide

end ApiClient.Naming
