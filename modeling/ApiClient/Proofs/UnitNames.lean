import ApiClient.Proofs.Files

namespace ApiClient.Naming

open Text

theorem isSeparatorOrDot_of_isAlphanum {c : Char} (h : c.isAlphanum = true) :
    isSeparatorOrDot c = false :=
  forall_ascii (P := fun c => c.isAlphanum = true → isSeparatorOrDot c = false)
    (by decide +kernel) (toNat_lt_of_isAlphanum h) h

theorem isDigit_toUpper {c : Char} (h : c.isAlphanum = true) : c.toUpper.isDigit = c.isDigit :=
  forall_ascii (P := fun c => c.isAlphanum = true → c.toUpper.isDigit = c.isDigit)
    (by decide +kernel) (toNat_lt_of_isAlphanum h) h

theorem isLower_of_isDigit {c : Char} (h : c.isDigit = true) : c.isLower = false :=
  forall_ascii (P := fun c => c.isDigit = true → c.isLower = false) (by decide +kernel)
    (toNat_lt_of_isAlphanum (by simp [Char.isAlphanum, h])) h

theorem isWord_cases {c : Char} (h : isWord c = true) : c = '_' ∨ c.isAlphanum = true := by
  rw [isWord, Bool.or_eq_true, beq_iff_eq] at h
  exact h.symm

theorem isDeclarable_api (index : Nat) : IsDeclarable ("api" ++ toString index) := by
  constructor
  · have hapi : IsIdentifier "api".toList := by decide
    rw [String.toList_append]
    exact hapi.append fun c hc => .inl (by simp [Char.isAlphanum, isDigit_of_mem_toString hc])
  · have hne : (toString index).toList ≠ [] := by
      rw [Nat.toString_eq_repr, Nat.toList_repr]
      exact Nat.toDigits_ne_nil
    obtain ⟨c, hc⟩ := List.exists_mem_of_ne_nil _ hne
    have hlower : c.isLower = false := isLower_of_isDigit (isDigit_of_mem_toString hc)
    exact isReserved_of_mem (String.toList_append ▸ List.mem_append_right _ hc) hlower

section JoinRuns

variable {held cs : List Char}

theorem joinRuns_underscore (held rest : List Char) :
    joinRuns held ('_' :: rest) = joinRuns ('_' :: held) rest := by
  rw [joinRuns, if_pos (by decide)]

theorem joinRuns_alphanum {c : Char} (h : c.isAlphanum = true) (held rest : List Char) :
    joinRuns held (c :: rest) = (if held.isEmpty then c else c.toUpper) :: joinRuns [] rest := by
  rw [joinRuns, if_neg (by rw [isSeparatorOrDot_of_isAlphanum h]; exact Bool.false_ne_true)]
  cases held with
  | nil => rfl
  | cons d held => simp [h]

theorem isWord_joinRuns (hheld : ∀ c ∈ held, isWord c = true) (hcs : ∀ c ∈ cs, isWord c = true) :
    ∀ c ∈ joinRuns held cs, isWord c = true := by
  induction cs generalizing held with
  | nil => simpa [joinRuns] using hheld
  | cons c rest ih =>
    obtain ⟨hc, hrest⟩ := List.forall_mem_cons.1 hcs
    obtain rfl | halpha := isWord_cases hc
    · rw [joinRuns_underscore]
      exact ih (List.forall_mem_cons.2 ⟨hc, hheld⟩) hrest
    · rw [joinRuns_alphanum halpha]
      refine List.forall_mem_cons.2 ⟨?_, ih (by simp) hrest⟩
      split
      · exact hc
      · exact (isWord_changeCase hc).1

theorem joinRuns_eq_nil (hcs : ∀ c ∈ cs, isWord c = true) (h : joinRuns held cs = []) :
    held = [] ∧ cs = [] := by
  induction cs generalizing held with
  | nil => simpa [joinRuns] using h
  | cons c rest ih =>
    obtain ⟨hc, hrest⟩ := List.forall_mem_cons.1 hcs
    obtain rfl | halpha := isWord_cases hc
    · rw [joinRuns_underscore] at h
      exact absurd (ih hrest h).1 (List.cons_ne_nil _ _)
    · rw [joinRuns_alphanum halpha] at h
      exact absurd h (List.cons_ne_nil _ _)

/-- Joining drops the underscores in front, so the first letter or digit decides. -/
theorem startsWithDigit_joinRuns (hheld : ∀ c ∈ held, c = '_') (hcs : ∀ c ∈ cs, isWord c = true) :
    startsWithDigit (joinRuns held cs) = (cs.find? Char.isAlphanum).any Char.isDigit := by
  induction cs generalizing held with
  | nil =>
    rw [joinRuns, startsWithDigit, List.head?_reverse]
    cases hlast : held.getLast? with
    | none => rfl
    | some c =>
      rw [hheld c (List.mem_of_getLast? hlast)]
      rfl
  | cons c rest ih =>
    obtain ⟨hc, hrest⟩ := List.forall_mem_cons.1 hcs
    obtain rfl | halpha := isWord_cases hc
    · rw [joinRuns_underscore, List.find?_cons_of_neg (by decide)]
      exact ih (List.forall_mem_cons.2 ⟨rfl, hheld⟩) hrest
    · rw [joinRuns_alphanum halpha, List.find?_cons_of_pos halpha]
      change (if held.isEmpty then c else c.toUpper).isDigit = c.isDigit
      split
      · rfl
      · exact isDigit_toUpper halpha

theorem exists_not_isLower_joinRuns (hcs : ∀ c ∈ cs, isWord c = true)
    (h : '_' ∈ held ∨ '_' ∈ cs) : ∃ c ∈ joinRuns held cs, c.isLower = false := by
  induction cs generalizing held with
  | nil =>
    refine ⟨'_', ?_, by decide⟩
    simpa [joinRuns] using h
  | cons c rest ih =>
    obtain ⟨hc, hrest⟩ := List.forall_mem_cons.1 hcs
    obtain rfl | halpha := isWord_cases hc
    · rw [joinRuns_underscore]
      exact ih hrest (.inl List.mem_cons_self)
    · rw [joinRuns_alphanum halpha]
      obtain hheld | hmem := h
      · have hne : held.isEmpty = false := List.isEmpty_eq_false_iff_exists_mem.2 ⟨_, hheld⟩
        refine ⟨c.toUpper, ?_, Char.isLower_toUpper_eq_false c⟩
        simp [hne]
      · have hlater : '_' ∈ rest := by
          refine (List.mem_cons.1 hmem).resolve_left ?_
          rintro rfl
          exact absurd halpha (by decide)
        obtain ⟨d, hd, hlower⟩ : ∃ d ∈ joinRuns [] rest, d.isLower = false :=
          ih hrest (.inr hlater)
        exact ⟨d, List.mem_cons_of_mem _ hd, hlower⟩

theorem joinRuns_of_notMem (hcs : ∀ c ∈ cs, isWord c = true) (h : '_' ∉ cs) :
    joinRuns [] cs = cs := by
  induction cs with
  | nil => rfl
  | cons c rest ih =>
    obtain ⟨hc, hrest⟩ := List.forall_mem_cons.1 hcs
    rw [List.mem_cons, not_or] at h
    have halpha := (isWord_cases hc).resolve_left fun he => h.1 he.symm
    rw [joinRuns_alphanum halpha, ih hrest h.2]
    rfl

end JoinRuns

section ReplaceDot

variable {name : String}

theorem toList_replaceDot (h : ∀ c ∈ name.toList, isWord c = true) :
    (replaceDot name).toList = joinRuns [] name.toList := by
  rw [replaceDot, String.toList_ofList, replaceDotChars, onlyWords]
  exact List.filter_eq_self.2 (isWord_joinRuns (by simp) h)

/-- Reserved words have no separators, and joining makes none of what has. -/
theorem isReserved_replaceDot (h : ∀ c ∈ name.toList, isWord c = true) :
    isReserved (replaceDot name) = isReserved name := by
  by_cases hmark : '_' ∈ name.toList
  · obtain ⟨c, hc, hlower⟩ : ∃ c ∈ joinRuns [] name.toList, c.isLower = false :=
      exists_not_isLower_joinRuns h (.inr hmark)
    rw [← toList_replaceDot h] at hc
    rw [isReserved_of_mem hc hlower, isReserved_of_mem hmark (by decide)]
  · have hsame : (replaceDot name).toList = name.toList := by
      rw [toList_replaceDot h, joinRuns_of_notMem h hmark]
    rw [String.toList_inj.1 hsame]

end ReplaceDot

end ApiClient.Naming

namespace ApiClient

variable [Text.Transliteration]

theorem Endpoint.isWord_foldTag (isCamelCase : Bool) (raw : String) :
    ∀ c ∈ (foldTag isCamelCase raw).toList, Naming.isWord c = true := by
  rw [foldTag]
  have htype := Naming.isWord_typeName raw
  cases isCamelCase with
  | false => exact htype
  | true =>
    intro c hc
    rw [if_pos rfl, String.toList_ofList] at hc
    have halpha := Text.isAlphanum_lowerCamel
      (fun d hd => (Naming.isIdentifierChar_of_isWord (htype d hd)).toNat_lt) c hc
    simp [Naming.isWord, halpha]

namespace Run

variable {r : Run} {c : Client} {u : ServiceUnit}

theorem exists_rawTag (h : r.client = .ok c) (hu : u ∈ c.services) :
    ∃ raw, Endpoint.foldTag r.config.isCamelCase raw = u.tag := by
  have htag : u.tag ∈ r.tagOccurrences := by
    obtain ⟨calls, interfaces, hcalls, -, hservices, -, -⟩ := client_eq_ok h
    rw [hservices, serviceUnits] at hu
    obtain ⟨⟨index, tag, t⟩, hmem, rfl⟩ := List.mem_map.1 hu
    have hgroups := map_tag_collected (forall₂_allCalls hcalls)
    rw [map_fst_groups] at hgroups
    rw [← mem_distinct, ← hgroups]
    exact List.mem_map.2 ⟨_, (List.mem_filter.1 hmem).1, rfl⟩
  obtain ⟨e, -, hraw⟩ := List.mem_flatMap.1 htag
  obtain ⟨raw, -, hfold⟩ := List.mem_map.1 hraw
  exact ⟨raw, hfold⟩

theorem exists_className (hnone : r.overrides = .none) (h : r.client = .ok c)
    (hu : u ∈ c.services) : ∃ index : Nat, u.className =
      if (Naming.replaceDot u.tag).isEmpty then "api" ++ toString index
      else Naming.replaceDot u.tag := by
  obtain ⟨calls, interfaces, -, -, hservices, -, -⟩ := client_eq_ok h
  rw [hservices, serviceUnits] at hu
  obtain ⟨⟨index, tag, t⟩, -, rfl⟩ := List.mem_map.1 hu
  refine ⟨index, ?_⟩
  have hname : (r.serviceUnit index tag t).className = r.fileName index tag := by
    simp only [serviceUnit, hnone]
    rfl
  exact hname.trans (fileName_of_none hnone index tag)

/-- Every class name is made of identifier characters. It can be declared exactly when its tag is no
reserved word and the first letter or digit of the tag is a letter. -/
theorem classNames_declarable_iff (r : Run) (c : Client) (hnone : r.overrides = .none)
    (h : r.client = .ok c) (u : ServiceUnit) (hu : u ∈ c.services) :
    (u.className.toList ≠ [] ∧ ∀ ch ∈ u.className.toList, Naming.IsIdentifierChar ch) ∧
      (Naming.IsDeclarable u.className ↔ Naming.isReserved u.tag = false ∧
        (u.tag.toList.find? Char.isAlphanum).any Char.isDigit = false) := by
  obtain ⟨raw, hraw⟩ := exists_rawTag h hu
  have hword : ∀ ch ∈ u.tag.toList, Naming.isWord ch = true := hraw ▸ Endpoint.isWord_foldTag _ raw
  obtain ⟨index, hname⟩ := exists_className hnone h hu
  have hjoined := Naming.toList_replaceDot hword
  rw [hname]
  split
  · next hempty =>
    have hnil : (Naming.replaceDot u.tag).toList = [] := by
      rw [String.isEmpty_iff.1 hempty]
      rfl
    have htag := (Naming.joinRuns_eq_nil hword (hjoined.symm.trans hnil)).2
    have hapi := Naming.isDeclarable_api index
    refine ⟨⟨hapi.identifier.ne_nil, hapi.identifier.chars⟩, fun _ => ?_, fun _ => hapi⟩
    rw [String.toList_inj.1 (htag.trans String.toList_empty.symm)]
    exact ⟨by decide, rfl⟩
  · next hne =>
    have hstart : Naming.startsWithDigit (Naming.replaceDot u.tag).toList =
        (u.tag.toList.find? Char.isAlphanum).any Char.isDigit := by
      rw [hjoined]
      exact Naming.startsWithDigit_joinRuns (by simp) hword
    have hchars : ∀ ch ∈ (Naming.replaceDot u.tag).toList, Naming.IsIdentifierChar ch := by
      rw [hjoined]
      exact fun ch hch =>
        Naming.isIdentifierChar_of_isWord (Naming.isWord_joinRuns (by simp) hword ch hch)
    have hnil : (Naming.replaceDot u.tag).toList ≠ [] := by
      simpa [String.isEmpty_iff] using hne
    refine ⟨⟨hnil, hchars⟩, ?_⟩
    rw [← hstart, ← Naming.isReserved_replaceDot hword]
    constructor
    · intro hd
      exact ⟨hd.free, hd.identifier.head⟩
    · rintro ⟨hfree, hhead⟩
      exact ⟨⟨hnil, hchars, hhead⟩, hfree⟩

end Run

end ApiClient

namespace ApiClient.Run

def keywordRun : Run :=
  .ofTree .default (tagsTree ["delete", "___"]) (by decide +kernel)

theorem keywordRun_declarable : ∃ c, keywordRun.client = .ok c ∧
    c.services.map ServiceUnit.className = ["openApiDelete", "api1"] ∧
    ∀ u ∈ c.services, Naming.IsDeclarable u.className := by
  obtain ⟨c, hc, hnames⟩ : ∃ c, keywordRun.client = .ok c ∧
      c.services.map (fun u => (u.tag, u.className)) =
        [("openApiDelete", "openApiDelete"), ("", "api1")] :=
    exists_ok_of_map (by decide +kernel)
  have hclass := congrArg (List.map Prod.snd) hnames
  rw [List.map_map] at hclass
  refine ⟨c, hc, hclass, fun u hu => ?_⟩
  have htags : ∀ entry ∈ c.services.map (fun u => (u.tag, u.className)),
      Naming.isReserved entry.1 = false ∧
        (entry.1.toList.find? Char.isAlphanum).any Char.isDigit = false := by
    rw [hnames]
    decide
  exact (classNames_declarable_iff keywordRun c rfl hc u hu).2.2
    (htags _ (List.mem_map.2 ⟨u, hu, rfl⟩))

def digitRun : Run :=
  .ofTree .default (tagsTree ["1pet"]) (by decide +kernel)

theorem not_classNames_declarable : ¬ ∀ (r : Run) (c : Client), r.overrides = .none →
    r.client = .ok c → ∀ u ∈ c.services, Naming.IsDeclarable u.className := by
  intro declarable
  obtain ⟨c, hc, hnames⟩ : ∃ c, digitRun.client = .ok c ∧
      c.services.map ServiceUnit.className = ["1pet"] :=
    exists_ok_of_map (by decide +kernel)
  obtain ⟨u, hu, hname⟩ := exists_unit_of_map hnames
  have hhead := (declarable digitRun c rfl hc u hu).identifier.head
  rw [hname] at hhead
  exact absurd hhead (by decide)

end ApiClient.Run
